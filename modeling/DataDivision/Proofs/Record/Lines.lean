import DataDivision.Proofs.Record.Arena

/-!
Line numbers in records.

A field knows the source line of its entry for the sake of messages.  What refers to what, what a
field shares with others and which fields are dropped does not depend on lines: each of these steps
gives the same if lines are taken off before it or after it.
-/

namespace DataDivision

/-- A field without the line that its entry starts on. -/
def Field.withoutLine (f : Field) : Field := { f with line := 0 }

namespace Record

variable (fields : List Field)

/-! ## Links -/

theorem targetOf_withoutLine : targetOf (fields.map Field.withoutLine) = targetOf fields := by
  funext i
  simp only [targetOf, List.getElem?_map]
  cases fields[i]? <;> rfl

theorem parentOf_withoutLine : parentOf (fields.map Field.withoutLine) = parentOf fields := by
  funext i
  simp only [parentOf, List.getElem?_map]
  cases fields[i]? <;> rfl

theorem baseOf_withoutLine : baseOf (fields.map Field.withoutLine) = baseOf fields := by
  funext i
  rw [baseOf, baseOf, targetOf_withoutLine]

theorem latestNamed_withoutLine (name : String) :
    latestNamed (fields.map Field.withoutLine) name = latestNamed fields name := by
  refine latestNamed_congr name ?_
  rw [List.map_map]
  rfl

/-! ## Shared storage -/

theorem basesOf_withoutLine : basesOf (fields.map Field.withoutLine) = basesOf fields := by
  simp only [basesOf, List.length_map, targetOf_withoutLine, baseOf_withoutLine]

theorem overlaysOf_withoutLine (bases : List Nat) :
    overlaysOf (fields.map Field.withoutLine) bases = overlaysOf fields bases := by
  have hslot : slotOf? (fields.map Field.withoutLine) bases = slotOf? fields bases := by
    funext i
    simp only [slotOf?, baseOf_withoutLine]
  funext i
  rw [overlaysOf, overlaysOf, parentOf_withoutLine, hslot]

theorem assignOverlays_withoutLine :
    assignOverlays (fields.map Field.withoutLine) =
      (assignOverlays fields).map Field.withoutLine := by
  apply List.ext_getElem?
  intro i
  rw [getElem?_assignOverlays, List.getElem?_map, List.getElem?_map, getElem?_assignOverlays,
    basesOf_withoutLine, overlaysOf_withoutLine]
  cases fields[i]? <;> rfl

/-! ## Dropping fields -/

theorem renumber_withoutLine {dropped : Field → Bool}
    (hd : ∀ f : Field, dropped f.withoutLine = dropped f) (done : List (Option Nat)) (next : Nat) :
    renumber dropped done next (fields.map Field.withoutLine) =
      renumber dropped done next fields := by
  induction fields generalizing done next with
  | nil => rfl
  | cons f rest ih =>
    have hhost : f.withoutLine.host = f.host := rfl
    simp only [List.map_cons, renumber, hd, hhost, ih]

theorem numbersOf_withoutLine (rules : Rules) :
    numbersOf rules (fields.map Field.withoutLine) = numbersOf rules fields :=
  renumber_withoutLine fields (fun _ => rfl) [] 0

theorem relink_withoutLine (rules : Rules) (numbers : List (Option Nat)) (f : Field) :
    relink rules (fields.map Field.withoutLine) numbers f.withoutLine =
      (relink rules fields numbers f).withoutLine := by
  have hparent : keptParent (fields.map Field.withoutLine) numbers f.withoutLine =
      keptParent fields numbers f := by
    rw [keptParent, keptParent, parentOf_withoutLine]
    rfl
  rw [relink, relink, hparent]
  rfl

theorem indicesOf_withoutLine (p : Field → Bool) :
    indicesOf (fields.map Field.withoutLine) p = indicesOf fields fun f => p f.withoutLine := by
  simp only [indicesOf, List.zipIdx_map, List.filter_map, List.map_map]
  rfl

theorem linkDown_withoutLine :
    linkDown (fields.map Field.withoutLine) = (linkDown fields).map Field.withoutLine := by
  apply List.ext_getElem?
  intro i
  simp only [linkDown, List.getElem?_map, List.getElem?_mapIdx, indicesOf_withoutLine]
  cases fields[i]? <;> rfl

theorem prune_withoutLine (rules : Rules) :
    prune rules (fields.map Field.withoutLine) = (prune rules fields).map Field.withoutLine := by
  have hnumbers := numbersOf_withoutLine fields rules
  unfold numbersOf at hnumbers
  simp only [prune, hnumbers, List.zip_map_left, List.filter_map, List.map_map]
  rw [← linkDown_withoutLine, List.map_map]
  congr 1
  refine List.map_congr_left fun x _ => ?_
  exact relink_withoutLine fields rules _ x.1

end Record

end DataDivision
