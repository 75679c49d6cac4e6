import DataDivision.Record.Walk

/-!
Records.

The record of some entries: its fields, what was found while reading them, and its last byte.  The
walk lays all fields out; fillers and excluded names are dropped afterwards and leave their bytes
behind.
-/

namespace DataDivision

/-- The fields of one record type, the findings about them, and the position of the last byte. -/
structure Record where
  fields : List Field
  diagnostics : List Diagnostic
  recordEnd : Nat
  deriving DecidableEq, Repr

namespace Record

/-! ## Shared storage -/

/-- The fields whose storage some other field redefines, by their indices. -/
def basesOf (fields : List Field) : List Nat :=
  (List.range fields.length).filterMap fun i => (targetOf fields i).map fun _ => baseOf fields i

/-- The part that the field at an index has in redefined storage, if any. -/
def slotOf? (fields : List Field) (bases : List Nat) (i : Nat) : Option OverlaySlot :=
  let base := baseOf fields i
  if base ≠ i ∨ bases.contains i then some ⟨base, i⟩ else none

/-- The parts of a field and of the groups around it, innermost first. -/
def overlaysOf (fields : List Field) (bases : List Nat) (i : Nat) : List OverlaySlot :=
  (chain (parentOf fields) i).filterMap (slotOf? fields bases)

def assignOverlays (fields : List Field) : List Field :=
  let bases := basesOf fields
  fields.mapIdx fun i f => { f with overlays := overlaysOf fields bases i }

/-! ## Dropping fields -/

/-- The rules leave the field out. -/
def isDropped (processing : Rules.FieldProcessing) (f : Field) : Bool :=
  (f.filler && !processing.includeFillers) ||
    processing.excludeFieldNames.any (Text.sameIgnoringCase · f.name)

/-- The new index of each field that stays.  A condition name goes with its field. -/
def renumber (dropped : Field → Bool) (done : List (Option Nat)) (next : Nat) :
    List Field → List (Option Nat)
  | [] => done
  | f :: rest =>
    if !dropped f && f.host.all (fun h => (done[h]?.bind id).isSome) then
      renumber dropped (done ++ [some next]) (next + 1) rest
    else renumber dropped (done ++ [none]) next rest

/-- The new index of the field that had the given one. -/
def renumbered (numbers : List (Option Nat)) (i : Nat) : Option Nat := numbers[i]?.bind id

/-- The nearest group around a field that stays. -/
def keptParent (fields : List Field) (numbers : List (Option Nat)) (f : Field) : Option Nat :=
  if f.isCondition then none
  else f.parent.bind fun p => (chain (parentOf fields) p).findSome? (renumbered numbers)

/-- The output name of a field: mapped, or in the naming convention. -/
def outputName (rules : Rules) (name : String) : String :=
  (rules.config.fieldProcessing.fieldNameMappings.get? name).getD (rules.naming.apply name)

/-- A field that stays, with its links in the new numbering. -/
def relink (rules : Rules) (fields : List Field) (numbers : List (Option Nat)) (f : Field) :
    Field :=
  { f with
    parent := keptParent fields numbers f
    host := f.host.bind (renumbered numbers)
    redefinesTarget := f.redefinesTarget.bind (renumbered numbers)
    outputName := outputName rules f.name }

/-- The indices of the fields that satisfy a condition. -/
def indicesOf (fields : List Field) (p : Field → Bool) : List Nat :=
  (fields.zipIdx.filter fun (f, _) => p f).map (·.2)

/-- Gives every field the lists of its children and condition names.  The lists are stated here as a
whole.  Filled one index after another as fields are added, and rewritten in the new numbering when
some are dropped, they come out the same (`Checked.ofEntries_eq`, `Checked.prune_eq`). -/
def linkDown (fields : List Field) : List Field :=
  fields.mapIdx fun i f =>
    { f with
      children := indicesOf fields fun g => g.parent == some i
      conditionNames := indicesOf fields fun g => g.host == some i }

/-- Drops what the rules leave out and links what stays. -/
def prune (rules : Rules) (fields : List Field) : List Field :=
  let numbers := renumber (isDropped rules.config.fieldProcessing) [] 0 fields
  let kept := (fields.zip numbers).filter fun (_, n) => n.isSome
  linkDown (kept.map fun (f, _) => relink rules fields numbers f)

/-! ## Records -/

/-- The record that a finished walk has laid out. -/
def ofWalk (rules : Rules) (w : Walk) : Record where
  fields := prune rules (assignOverlays w.fields)
  diagnostics := w.diagnostics
  recordEnd := w.cursor - 1

def ofEntries (rules : Rules) (entries : List Entry) : Record := ofWalk rules (Walk.run rules entries)

def ofLines (rules : Rules) (lines : List Line) : Record :=
  ofEntries rules (Entry.ofLines rules.strategy.columns? lines)

end Record

end DataDivision
