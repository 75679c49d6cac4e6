import DataDivision.Text.Alphanumeric
import DataDivision.Text.Blank

/-!
Conditional expressions.

An expression is a chain of branches such as `if char == 'H' then HEADER`, joined by `else` or by
`;`, `,` or `:`, with a label after a last `else`.  Keywords stand in any case of ASCII.  The reader
takes keywords as they come, without asking where the word ends.
-/

namespace DataDivision.Rules

/-- What a conditional expression says: characters with the labels they lead to, and a label for
all other characters. -/
structure Conditional where
  branches : List (Char × Option String)
  otherwise : Option String
  deriving DecidableEq, Repr

namespace Conditional

/-! ## Words -/

def afterExact? : List Char → List Char → Option (List Char)
  | [], cs => some cs
  | _ :: _, [] => none
  | w :: ws, c :: cs => if w = c then afterExact? ws cs else none

/-- The text after the given word, in any case of ASCII. -/
def afterWord? : List Char → List Char → Option (List Char)
  | [], cs => some cs
  | _ :: _, [] => none
  | w :: ws, c :: cs => if w.toLower = c.toLower then afterWord? ws cs else none

def isLabelChar (c : Char) : Bool := Text.isAlphanumeric c || c == '-' || c == '_'

/-- The words that are no labels. -/
def isReserved (word : List Char) : Bool :=
  word.map Char.toLower == "else".toList || word.map Char.toLower == "if".toList

def label? (cs : List Char) : Option (String × List Char) :=
  let word := cs.takeWhile isLabelChar
  if word.isEmpty || isReserved word then none
  else some (String.ofList word, cs.dropWhile isLabelChar)

def isDivider (c : Char) : Bool := c == ';' || c == ',' || c == ':'

/-- A character between two single or two double quotes. -/
def quoted? : List Char → Option (Char × List Char)
  | q :: c :: q' :: rest => if (q = '\'' ∨ q = '"') ∧ q' = q then some (c, rest) else none
  | _ => none

/-! ## Branches -/

/-- Passes over `if` and the blanks around it. -/
def skipIf (cs : List Char) : List Char :=
  let body := Text.dropBlanks cs
  match afterWord? "if".toList body with
  | some rest => Text.dropBlanks rest
  | none => body

/-- The word for the character that is tested. -/
def subject? (cs : List Char) : Option (List Char) :=
  (afterExact? "\x7bchar\x7d".toList cs).or (afterWord? "char".toList cs)

/-- The word between a test and its label. -/
def arrow? (cs : List Char) : Option (List Char) :=
  let body := Text.dropBlanks cs
  ((afterWord? "then".toList body).or (afterExact? "->".toList body)).or
    (afterExact? "?".toList body)

/-- The label of a branch, if it has one. -/
def target (cs : List Char) : Option String × List Char :=
  match label? (Text.dropBlanks cs) with
  | some (label, rest) => (some label, rest)
  | none => (none, cs)

def branch? (cs : List Char) : Option ((Char × Option String) × List Char) := do
  let rest ← subject? (skipIf cs)
  let rest ← afterExact? "==".toList (Text.dropBlanks rest)
  let (c, rest) ← quoted? (Text.dropBlanks rest)
  let (label, rest) := target ((arrow? rest).getD rest)
  return ((c, label), rest)

def separator? (cs : List Char) : Option (List Char) :=
  let body := Text.dropBlanks cs
  (afterWord? "else".toList body).or
    (match body with
      | c :: rest => if isDivider c then some rest else none
      | [] => none)

/-- Further branches, as many as there are; each uses up some text. -/
def moreBranches (cs : List Char) : List (Char × Option String) × List Char :=
  match (separator? cs).bind branch? with
  | none => ([], cs)
  | some (b, rest) =>
    if rest.length < cs.length then
      let (bs, after) := moreBranches rest
      (b :: bs, after)
    else ([], cs)
termination_by cs.length

/-! ## Expressions -/

/-- The label after a last `else`. -/
def otherwise? (cs : List Char) : Option (String × List Char) := do
  let body := match Text.dropBlanks cs with
    | c :: rest => if isDivider c then Text.dropBlanks rest else c :: rest
    | [] => []
  let rest ← afterWord? "else".toList body
  label? (Text.dropBlanks rest)

/-- Reads an expression; nothing but blanks may follow it. -/
def parse? (expression : String) : Option Conditional := do
  let (first, rest) ← branch? expression.toList
  let (more, rest) := moreBranches rest
  let (final, rest) := match otherwise? rest with
    | some (label, rest) => (some label, rest)
    | none => (none, rest)
  if Text.allBlank rest then some ⟨first :: more, final⟩ else none

end Conditional

end DataDivision.Rules
