import DataDivision.Entry.Descriptor

/-!
Fields.

A field is a data description entry with its place in a record.  The fields of a record stand in one
list, in source order, and refer to one another by their indices there.  Byte positions count from
the start position of the record, and both ends of a field are inside it.
-/

namespace DataDivision

/-- Takes part in the storage of the field `base` as one of its layouts: the base itself or one of
its redefinitions.  Both are indices in the record as it was declared. -/
structure OverlaySlot where
  base : Nat
  alternative : Nat
  deriving DecidableEq, Repr

/-- Two different layouts of one storage. -/
def OverlaySlot.isAlternativeOf (s t : OverlaySlot) : Bool :=
  s.base == t.base && s.alternative != t.alternative

structure Field where
  level : Nat
  name : String
  /-- The name after naming conventions and mappings. -/
  outputName : String
  kind : Kind
  filler : Bool
  picture : Option String := none
  usage : Option String := none
  encoding : Encoding := .character
  category : Option Category := none
  signed : Bool := false
  decimalPlaces : Nat := 0
  occurs : Option Nat := none
  redefines : Option String := none
  /-- The field that this one redefines. -/
  redefinesTarget : Option Nat := none
  value : Option String := none
  startPosition : Nat := 0
  endPosition : Nat := 0
  storageLength : Nat := 0
  parent : Option Nat := none
  children : List Nat := []
  /-- The condition names that describe this field. -/
  conditionNames : List Nat := []
  /-- The field that a condition name describes. -/
  host : Option Nat := none
  /-- The redefined storage that the field or a group around it takes part in, innermost first. -/
  overlays : List OverlaySlot := []
  /-- The source line that the entry starts on. -/
  line : Nat := 0
  deriving DecidableEq, Repr

namespace Field

/-- A field without a place. -/
def new (level : Nat) (name : String) (kind : Kind) : Field where
  level := level
  name := name
  outputName := name
  kind := kind
  filler := Entry.isFillerName name

def isGroup (f : Field) : Bool := f.kind == .group

def isElementary (f : Field) : Bool := f.kind == .elementary

def isCondition (f : Field) : Bool := f.kind == .condition

/-- Puts a field with storage at `start`.  Without any bytes it ends where it starts. -/
def place (f : Field) (start length : Nat) : Field :=
  { f with
    startPosition := start
    storageLength := length
    endPosition := if 0 < length then start + length - 1 else start }

/-- Gives a field without storage of its own the bytes that it covers. -/
def setExtent (f : Field) (first last : Nat) : Field :=
  { f with startPosition := first, endPosition := last, storageLength := 0 }

def withShape (f : Field) (shape : Picture) : Field :=
  { f with
    category := some shape.category
    signed := shape.signed
    decimalPlaces := shape.decimalPlaces }

/-- The two fields may share bytes, being layouts of one storage or parts of such. -/
def sharesStorageWith (f g : Field) : Bool :=
  f.overlays.any fun s => g.overlays.any s.isAlternativeOf

/-- The field that an entry declares, without a place. -/
def ofDescriptor (d : Entry.Descriptor) (line : Nat) : Field :=
  let f : Field := { Field.new d.level d.name d.kind with
    picture := d.picture
    occurs := d.occurs
    redefines := d.redefines
    value := d.value
    line := line }
  match d.shape with
  | some shape => f.withShape shape
  | none => f

end Field

end DataDivision
