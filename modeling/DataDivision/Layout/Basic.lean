import DataDivision.Layout.Overlap
import DataDivision.Text.Case

/-!
Record layouts.

The layout of a record type: its fields with counts and lengths drawn from them, a name, and the
messages of the structural checks.
-/

namespace DataDivision

/-- Counts and lengths of a layout. -/
structure Statistics where
  fieldCount : Nat
  groupFields : Nat
  elementaryFields : Nat
  conditionFields : Nat
  fillerFields : Nat
  totalLength : Nat
  minLength : Nat
  maxLength : Nat
  hasRedefines : Bool
  hasOccurs : Bool
  hasConditions : Bool
  deriving DecidableEq, Repr

/-- The layout of one record type. -/
structure Layout where
  recordType : String
  layoutName : String
  fields : List Field
  statistics : Statistics
  /-- The complaints of the structural checks. -/
  messages : List String
  deriving DecidableEq, Repr

namespace Layout

def isValid (l : Layout) : Bool := l.messages.isEmpty

def field? (l : Layout) (i : Nat) : Option Field := l.fields[i]?

/-- The first field of the given name, in any case. -/
def find? (l : Layout) (name : String) : Option Field :=
  l.fields.find? fun f => Text.sameIgnoringCase f.name name

/-- The fields outside every group. -/
def roots (l : Layout) : List Field :=
  l.fields.filter fun f => f.parent.isNone && !f.isCondition

/-- The fields at two indices may share bytes. -/
def sharesStorage (l : Layout) (i j : Nat) : Bool :=
  l.fields[i]?.any fun f => l.fields[j]?.any f.sharesStorageWith

/-- The indices of the fields that may share bytes with a field. -/
def sharers (l : Layout) (f : Field) : List Nat :=
  (l.fields.zipIdx.filter fun (g, _) => f.sharesStorageWith g).map (·.2)

/-! ## Lengths -/

/-- The field or something inside it has bytes; `depth` bounds the nesting that is looked at. -/
def hasStorageWithin (fields : List Field) : Nat → Field → Bool
  | 0, f => f.isElementary && 0 < f.storageLength
  | depth + 1, f =>
    if f.isElementary then 0 < f.storageLength
    else f.children.any fun c => fields[c]?.any (hasStorageWithin fields depth)

/-- The field or something inside it has bytes. -/
def hasStorage (fields : List Field) (f : Field) : Bool :=
  hasStorageWithin fields fields.length f

/-- The last position that an item ends at.  A group that occurs may reach behind the items inside
it, and an item without bytes ends where it starts. -/
def totalLength (fields : List Field) : Nat :=
  ((fields.filter fun f => f.isElementary || (f.isGroup && f.occurs.isSome)).map
    (·.endPosition)).foldl max 0

/-- The last byte of the shortest record that has one of the record levels and any bytes. -/
def minLength (recordLevels : List Nat) (fields : List Field) : Nat :=
  let records := fields.filter fun f =>
    f.parent.isNone && !f.isCondition && recordLevels.contains f.level && hasStorage fields f
  ((records.map (·.endPosition)).min?).getD (totalLength fields)

def statisticsOf (recordLevels : List Nat) (fields : List Field) : Statistics :=
  let conditions := fields.countP fun f => f.isCondition
  { fieldCount := fields.length
    groupFields := fields.countP fun f => f.isGroup
    elementaryFields := fields.countP fun f => f.isElementary
    conditionFields := conditions
    fillerFields := fields.countP fun f => f.isElementary && f.filler
    totalLength := totalLength fields
    minLength := minLength recordLevels fields
    maxLength := totalLength fields
    hasRedefines := fields.any fun f => f.redefines.isSome
    hasOccurs := fields.any fun f => f.occurs.isSome
    hasConditions := 0 < conditions }

/-! ## Names -/

/-- The text with every occurrence of a nonempty `word` replaced, from the left. -/
def replaceWord (word replacement : List Char) (text : List Char) : List Char :=
  match text with
  | [] => []
  | c :: rest =>
    if 0 < word.length ∧ (c :: rest).take word.length = word then
      replacement ++ replaceWord word replacement (rest.drop (word.length - 1))
    else c :: replaceWord word replacement rest
termination_by text.length
decreasing_by
  · simp only [List.length_drop, List.length_cons]
    omega
  · simp

/-- The name of a record without an item at level 01. -/
def defaultRecordName : String := "RECORD"

/-- Fills the record type and the name at level 01 into a template. -/
def nameOf (template recordType : String) (fields : List Field) : String :=
  let recordName := ((fields.find? fun f => f.level == 1).map (·.name)).getD defaultRecordName
  let withType :=
    replaceWord "\x7brecord_type\x7d".toList recordType.toList template.toList
  String.ofList (replaceWord "\x7b01_level_name\x7d".toList recordName.toList withType)

/-! ## Assembly -/

/-- How layouts are put together. -/
structure Assembler where
  template : String := "\x7brecord_type\x7d_\x7b01_level_name\x7d"
  checkOverlaps : Bool := true
  recordLevels : List Nat := [1]
  deriving DecidableEq, Repr

/-- The complaint about a field whose bytes do not fit its length. -/
def lengthComplaint? (f : Field) : Option String :=
  let length := f.storageLength
  if f.isElementary && 0 < length && f.endPosition != f.startPosition + length - 1 then
    some (s!"`{f.name}` ends at {f.endPosition} but starts at {f.startPosition}" ++
      s!" with {length} bytes")
  else none

namespace Assembler

/-- The layout of a record type, and the overlaps found in it. -/
def assemble (a : Assembler) (recordType : String) (fields : List Field) : Layout × List Overlap :=
  let overlaps := if a.checkOverlaps then Overlap.find fields else []
  ({ recordType := recordType
     layoutName := nameOf a.template recordType fields
     fields := fields
     statistics := statisticsOf a.recordLevels fields
     messages := overlaps.map (·.describe fields) ++ fields.filterMap lengthComplaint? }, overlaps)

end Assembler

end Layout

end DataDivision
