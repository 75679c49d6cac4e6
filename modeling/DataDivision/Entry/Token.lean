import DataDivision.Text.Blank

/-!
Words and literals.

The clauses of an entry are words, separated by blanks, and literals in single or double quotes.  A
quote ends the word before it, and a literal without its closing quote runs to the end.
-/

namespace DataDivision.Entry

inductive Token
  | word (text : List Char)
  | literal (text : List Char)
  deriving DecidableEq, Repr

namespace Token

def isQuote (c : Char) : Bool := c == '\'' || c == '"'

def isWordChar (c : Char) : Bool := !Text.isBlank c && !isQuote c

def split : List Char → List Token
  | [] => []
  | c :: rest =>
    if Text.isBlank c then split rest
    else if isQuote c then
      literal (rest.takeWhile (· != c)) :: split ((rest.dropWhile (· != c)).drop 1)
    else word (c :: rest.takeWhile isWordChar) :: split (rest.dropWhile isWordChar)
termination_by cs => cs.length
decreasing_by
  · simp
  · have : (rest.dropWhile (· != c)).length ≤ rest.length := (List.dropWhile_sublist _).length_le
    simp only [List.length_drop, List.length_cons]
    omega
  · have : (rest.dropWhile isWordChar).length ≤ rest.length := (List.dropWhile_sublist _).length_le
    simp only [List.length_cons]
    omega

end Token

/-- A word without one period at its end. -/
def dropPeriod : List Char → List Char
  | [] => []
  | ['.'] => []
  | c :: rest => c :: dropPeriod rest

end DataDivision.Entry
