import DataDivision.Encoding
import DataDivision.Picture.Basic

/-!
Storage lengths.

The length of an elementary item in bytes follows from the positions of its picture, how often it
occurs, and its encoding.  Lengths are 64-bit numbers: `addSat` and `mulSat` stop at the largest,
`add?` and `mul?` give up beyond it.
-/

namespace DataDivision

/-- The structural role of a data item. -/
inductive Kind
  /-- Has no picture and holds other items. -/
  | group
  /-- Has storage of its own. -/
  | elementary
  /-- A condition name at level 88, which describes another item. -/
  | condition
  deriving DecidableEq, Repr

def Kind.name : Kind → String
  | group => "GROUP"
  | elementary => "ELEMENTARY"
  | condition => "CONDITION"

namespace Storage

/-- Addition that stops at the largest 64-bit number. -/
def addSat (a b : Nat) : Nat := min (a + b) Text.maxWord64

/-- Multiplication that stops at the largest 64-bit number. -/
def mulSat (a b : Nat) : Nat := min (a * b) Text.maxWord64

/-- The sum, if it is a 64-bit number. -/
def add? (a b : Nat) : Option Nat := if a + b ≤ Text.maxWord64 then some (a + b) else none

/-- The product, if it is a 64-bit number. -/
def mul? (a b : Nat) : Option Nat := if a * b ≤ Text.maxWord64 then some (a * b) else none

/-- The last byte position that a record may reach. -/
def maxRecordLength : Nat := 2147483647

/-- The bytes of `count` positions in an encoding. -/
def encodedLength (count : Nat) (encoding : Encoding) (signed : Bool) : Nat :=
  match encoding with
  | .character => count
  | .binary | .nativeBinary =>
    if count ≤ 4 then 2 else if count ≤ 9 then 4 else if count ≤ 18 then 8 else 16
  | .float => 4
  | .double => 8
  | .packedDecimal => addSat count (if signed then 2 else 1) / 2

/-- How often an item occurs: once unless a positive count is given. -/
def repeatCount (occurs : Option Nat) : Nat :=
  match occurs with
  | some n => if 0 < n then n else 1
  | none => 1

theorem repeatCount_pos (occurs : Option Nat) : 0 < repeatCount occurs := by
  unfold repeatCount
  split
  · split <;> omega
  · omega

/-- The bytes of an item with the given picture.  Only elementary items have storage, and the
repetition multiplies their positions before they are encoded. -/
def length (kind : Kind) (picture : Option Picture) (encoding : Encoding) (occurs : Option Nat) :
    Nat :=
  match kind with
  | .group | .condition => 0
  | .elementary =>
    let positions := (picture.map (·.displayLength)).getD 0
    let signed := (picture.map (·.signed)).getD false
    encodedLength (mulSat positions (repeatCount occurs)) encoding signed

end Storage

end DataDivision
