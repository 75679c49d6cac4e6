import DataDivision.Text.Blank

/-!
The head of a data description entry: a level of two digits, blanks, and a data name.
-/

namespace DataDivision.Entry

def isNameChar (c : Char) : Bool := c.isAlphanum || c == '-'

/-- A data name: letters, digits and hyphens, with a letter among them. -/
def isDataName (name : List Char) : Bool := name.all isNameChar && name.any Char.isAlpha

/-- The head of an entry and the text of its clauses. -/
structure Head where
  level : Char × Char
  name : List Char
  clauses : List Char
  deriving DecidableEq, Repr

namespace Head

/-- The number of a level of two digits. -/
def levelNumber (h : Head) : Nat :=
  10 * (h.level.1.toNat - '0'.toNat) + (h.level.2.toNat - '0'.toNat)

/-- What may follow the data name: nothing, a blank or a period. -/
def endsName : List Char → Bool
  | [] => true
  | c :: _ => Text.isBlank c || c == '.'

def split? (text : List Char) : Option Head :=
  match Text.dropBlanks text with
  | tens :: ones :: gap :: rest =>
    if tens.isDigit && ones.isDigit && Text.isBlank gap then
      let body := Text.dropBlanks rest
      let name := body.takeWhile isNameChar
      let clauses := body.dropWhile isNameChar
      if name.any Char.isAlpha && endsName clauses then some ⟨(tens, ones), name, clauses⟩
      else none
    else none
  | _ => none

theorem isDataName_of_split? {text : List Char} {h : Head} (hs : split? text = some h) :
    isDataName h.name = true := by
  unfold split? at hs
  split at hs
  · split at hs
    · dsimp only at hs
      split at hs
      · rename_i hn
        simp only [Option.some.injEq] at hs
        subst hs
        simp only [Bool.and_eq_true] at hn
        simp only [isDataName, Bool.and_eq_true, hn.1, and_true]
        exact List.all_takeWhile
      · simp at hs
    · simp at hs
  · simp at hs

end Head

/-- The text begins a data description entry. -/
def startsEntry (text : List Char) : Bool := (Head.split? text).isSome

end DataDivision.Entry
