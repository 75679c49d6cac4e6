import DataDivision.Layout.Basic
import DataDivision.Proofs.Record.Lines

/-!
Line numbers in layouts.

Nothing that a layout says beside its fields depends on the source lines of these: the overlaps that
are found, the lengths, the name and the messages are the same for fields without lines
(`assemble_withoutLine`).
-/

namespace DataDivision

/-- A layout whose fields do not know their lines. -/
def Layout.withoutLines (l : Layout) : Layout :=
  { l with fields := l.fields.map Field.withoutLine }

namespace Layout

variable (fields : List Field)

/-! ## Overlaps -/

namespace Overlap

/-- A field without its line, at the same index. -/
def lineless (x : Indexed) : Indexed := (x.1.withoutLine, x.2)

theorem stored_withoutLine :
    stored (fields.map Field.withoutLine) = (stored fields).map lineless := by
  simp only [stored, List.zipIdx_map, List.filter_map]
  rfl

theorem sweep_lineless (active rest : List Indexed) :
    sweep (active.map lineless) (rest.map lineless) = sweep active rest := by
  induction rest generalizing active with
  | nil => rfl
  | cons next rest ih =>
    have hreach : (active.map lineless).filter
        (fun a => (lineless next).1.startPosition ≤ a.1.endPosition) =
        (active.filter fun a => next.1.startPosition ≤ a.1.endPosition).map lineless :=
      List.filter_map
    simp only [List.map_cons, sweep, hreach]
    congr 1
    · rw [List.filter_map, List.map_map]
      rfl
    · rw [← List.map_singleton (f := lineless), ← List.map_append, ih]

theorem find_withoutLine : find (fields.map Field.withoutLine) = find fields := by
  have hsort : ((stored fields).mergeSort precedes).map lineless =
      ((stored fields).map lineless).mergeSort precedes :=
    List.map_mergeSort fun _ _ _ _ => rfl
  rw [find, find, stored_withoutLine, ← hsort]
  exact sweep_lineless [] _

theorem describe_withoutLine (o : Overlap) :
    o.describe (fields.map Field.withoutLine) = o.describe fields := by
  simp only [describe, List.getElem?_map]
  cases fields[o.first]? <;> cases fields[o.second]? <;> rfl

end Overlap

/-! ## Lengths -/

theorem hasStorageWithin_withoutLine (depth : Nat) (f : Field) :
    hasStorageWithin (fields.map Field.withoutLine) depth f.withoutLine =
      hasStorageWithin fields depth f := by
  induction depth generalizing f with
  | zero => rfl
  | succ depth ih =>
    have hchild : ∀ c : Nat, ((fields.map Field.withoutLine)[c]?).any
        (hasStorageWithin (fields.map Field.withoutLine) depth) =
        fields[c]?.any (hasStorageWithin fields depth) := by
      intro c
      rw [List.getElem?_map]
      cases fields[c]? with
      | none => rfl
      | some g => exact ih g
    simp only [hasStorageWithin, hchild]
    rfl

theorem totalLength_withoutLine :
    totalLength (fields.map Field.withoutLine) = totalLength fields := by
  simp only [totalLength, List.filter_map, List.map_map]
  rfl

theorem minLength_withoutLine (recordLevels : List Nat) :
    minLength recordLevels (fields.map Field.withoutLine) = minLength recordLevels fields := by
  have hstorage : ∀ f : Field, hasStorage (fields.map Field.withoutLine) f.withoutLine =
      hasStorage fields f := by
    intro f
    rw [hasStorage, hasStorage, List.length_map]
    exact hasStorageWithin_withoutLine fields _ f
  simp only [minLength, totalLength_withoutLine, List.filter_map, List.map_map,
    Function.comp_def, hstorage]
  rfl

theorem statisticsOf_withoutLine (recordLevels : List Nat) :
    statisticsOf recordLevels (fields.map Field.withoutLine) =
      statisticsOf recordLevels fields := by
  simp only [statisticsOf, totalLength_withoutLine, minLength_withoutLine, List.length_map,
    List.countP_map, List.any_map]
  rfl

/-! ## Assembly -/

theorem nameOf_withoutLine (template recordType : String) :
    nameOf template recordType (fields.map Field.withoutLine) =
      nameOf template recordType fields := by
  simp only [nameOf, List.find?_map, Option.map_map]
  rfl

/-- Taking the lines off before the assembly takes them off the layout. -/
theorem assemble_withoutLine (a : Assembler) (recordType : String) :
    (a.assemble recordType (fields.map Field.withoutLine)).1 =
      (a.assemble recordType fields).1.withoutLines := by
  have hcomplaints : (fields.map Field.withoutLine).filterMap lengthComplaint? =
      fields.filterMap lengthComplaint? := by
    rw [List.filterMap_map]
    rfl
  have hdescribe : (fun o : Overlap => o.describe (fields.map Field.withoutLine)) =
      fun o => o.describe fields := funext fun o => Overlap.describe_withoutLine fields o
  simp only [Assembler.assemble, withoutLines, Overlap.find_withoutLine, nameOf_withoutLine,
    statisticsOf_withoutLine, hcomplaints, hdescribe]

end Layout

end DataDivision
