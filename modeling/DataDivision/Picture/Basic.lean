import DataDivision.Text.Blank
import DataDivision.Text.Numeral

/-!
Picture strings.

A picture is read as runs of one symbol (`X(10)` is a run of ten `X`), which are then measured
without writing them out.  `analyze` reads and measures; it fails with the first problem found.
-/

namespace DataDivision

/-- What kind of data a picture describes. -/
inductive Category
  /-- Digits only. -/
  | numeric
  /-- Digits around an implied decimal point. -/
  | decimal
  /-- Anything that holds an `X`, or letters beside digits. -/
  | alphanumeric
  /-- Letters only. -/
  | alphabetic
  /-- Holds editing symbols. -/
  | edited
  deriving DecidableEq, Repr

def Category.name : Category → String
  | numeric => "numeric"
  | decimal => "decimal"
  | alphanumeric => "alphanumeric"
  | alphabetic => "alphabetic"
  | edited => "edited"

/-- The measurements of a picture string. -/
structure Picture where
  /-- Character positions when displayed. -/
  displayLength : Nat
  /-- Digit positions after the implied decimal point. -/
  decimalPlaces : Nat
  signed : Bool
  category : Category
  deriving DecidableEq, Repr

namespace Picture

/-- The most positions a picture may describe. -/
def maxLength : Nat := 134217727

/-- Why a picture string is refused. -/
inductive Error
  | empty
  | invalidSymbol (symbol : Char)
  | invalidRepeat (text : String)
  | tooLong
  deriving DecidableEq, Repr

def Error.message : Error → String
  | empty => "picture string is empty"
  | invalidSymbol symbol => s!"unknown picture symbol `{symbol}`"
  | invalidRepeat text => s!"invalid repeat count `{text}`"
  | tooLong => s!"picture describes more than {maxLength} positions"

/-! ## Runs -/

/-- `count` copies of one symbol. -/
structure Run where
  symbol : Char
  count : Nat
  deriving DecidableEq, Repr

/-- The count written between parentheses, which must be a number from 1 to `maxLength`. -/
def readCount (count : List Char) : Except Error Nat :=
  if !Text.isDigits count || Text.digitsValue count == 0 then
    .error (.invalidRepeat (String.ofList (['('] ++ count ++ [')'])))
  else if Text.digitsValue count ≤ maxLength then .ok (Text.digitsValue count)
  else .error .tooLong

/-- Reads the run that starts with `symbol`, and returns what follows it. -/
def readRun (symbol : Char) (rest : List Char) : Except Error (Run × List Char) :=
  if symbol = '(' ∨ symbol = ')' then .error (.invalidRepeat (String.ofList [symbol]))
  else
    match rest with
    | '(' :: inner =>
      match inner.dropWhile (· != ')') with
      | [] => .error (.invalidRepeat (String.ofList ('(' :: inner)))
      | _ :: after => (readCount (inner.takeWhile (· != ')'))).map fun n => (⟨symbol, n⟩, after)
    | _ => .ok (⟨symbol, 1⟩, rest)

theorem length_of_readRun {symbol : Char} {rest after : List Char} {run : Run}
    (h : readRun symbol rest = .ok (run, after)) : after.length ≤ rest.length := by
  unfold readRun at h
  split at h
  · simp at h
  · split at h
    · rename_i inner
      have hle : (inner.dropWhile (· != ')')).length ≤ inner.length :=
        (List.dropWhile_sublist _).length_le
      split at h
      · simp at h
      · rename_i close tail hd
        rw [hd] at hle
        simp only [List.length_cons] at hle ⊢
        cases hc : readCount (inner.takeWhile (· != ')')) <;> rw [hc] at h
        · simp [Except.map] at h
        · simp only [Except.map, Except.ok.injEq, Prod.mk.injEq] at h
          obtain ⟨-, rfl⟩ := h
          omega
    · simp only [Except.ok.injEq, Prod.mk.injEq] at h
      exact Nat.le_of_eq (congrArg List.length h.2.symm)

def readRuns : List Char → Except Error (List Run)
  | [] => .ok []
  | symbol :: rest =>
    match _h : readRun symbol rest with
    | .error e => .error e
    | .ok (run, after) => (readRuns after).map (run :: ·)
termination_by cs => cs.length
decreasing_by
  have := length_of_readRun _h
  simp only [List.length_cons]
  omega

/-! ## Measuring -/

/-- What has been seen of a picture so far. -/
structure Tally where
  positions : Nat := 0
  places : Nat := 0
  digits : Nat := 0
  signed : Bool := false
  afterPoint : Bool := false
  alphabetic : Bool := false
  alphanumeric : Bool := false
  edited : Bool := false
  deriving DecidableEq, Repr

namespace Tally

/-- Takes up `n` more positions, within the limit. -/
def occupy (t : Tally) (n : Nat) : Except Error Tally :=
  if t.positions + n ≤ maxLength then .ok { t with positions := t.positions + n }
  else .error .tooLong

/-- Counts `n` more decimal places if the decimal point has been passed. -/
def addPlaces (t : Tally) (n : Nat) : Tally :=
  if t.afterPoint then { t with places := t.places + n } else t

/-- The symbols that edit the value they display, one position each. -/
def isEditing (symbol : Char) : Bool :=
  ['Z', '*', '+', '-', 'B', '0', '/', ',', '.', '$'].contains symbol

/-- Takes in a run that stands by itself. -/
def addRun (t : Tally) (run : Run) : Except Error Tally :=
  let n := run.count
  if run.symbol = '9' then ({ t with digits := t.digits + n }.addPlaces n).occupy n
  else if run.symbol = 'X' then { t with alphanumeric := true }.occupy n
  else if run.symbol = 'A' then { t with alphabetic := true }.occupy n
  else if isEditing run.symbol then { t with edited := true }.occupy n
  else if run.symbol = 'V' then .ok { t with afterPoint := true }
  else if run.symbol = 'P' then .ok (t.addPlaces n)
  else if run.symbol = 'S' then .ok { t with signed := true }
  else .error (.invalidSymbol run.symbol)

/-- Two runs that together are one of the pairs `CR` and `DB`. -/
def isPair (first second : Run) : Bool :=
  (first == ⟨'C', 1⟩ && second == ⟨'R', 1⟩) || (first == ⟨'D', 1⟩ && second == ⟨'B', 1⟩)

/-- Takes in runs from the left; a pair takes two positions. -/
def addRuns (t : Tally) : List Run → Except Error Tally
  | [] => .ok t
  | [run] => t.addRun run
  | first :: second :: rest =>
    if isPair first second then do
      let t ← { t with edited := true }.occupy 2
      t.addRuns rest
    else do
      let t ← t.addRun first
      t.addRuns (second :: rest)
termination_by runs => runs.length

def category (t : Tally) : Category :=
  if t.edited then .edited
  else if t.alphanumeric || (t.alphabetic && 0 < t.digits) then .alphanumeric
  else if t.alphabetic then .alphabetic
  else if t.afterPoint then .decimal
  else .numeric

/-- The finished measurements; the decimal places are held to the same limit. -/
def finish (t : Tally) : Except Error Picture :=
  if t.places ≤ maxLength then .ok ⟨t.positions, t.places, t.signed, t.category⟩
  else .error .tooLong

end Tally

/-- Measures the characters of a picture, trimmed and in upper case. -/
def analyzeChars (cs : List Char) : Except Error Picture := do
  let body := (Text.trim cs).map Char.toUpper
  if body.isEmpty then .error .empty
  else
    let runs ← readRuns body
    let t ← ({} : Tally).addRuns runs
    t.finish

def analyze (text : String) : Except Error Picture := analyzeChars text.toList

end Picture

end DataDivision
