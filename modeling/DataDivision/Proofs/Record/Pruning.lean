import DataDivision.Record.Basic

/-!
Dropped fields.

Dropping fields removes some from the list and gives the others new links; everything else about a
field that stays is as it was.
-/

namespace DataDivision

/-- A field without its links and its output name, which depend on the fields around it. -/
def Field.unlinked (f : Field) : Field :=
  { f with
    outputName := ""
    redefinesTarget := none
    parent := none
    children := []
    conditionNames := []
    host := none }

namespace Record

theorem map_unlinked_linkDown (fields : List Field) :
    (linkDown fields).map Field.unlinked = fields.map Field.unlinked := by
  apply List.ext_getElem?
  intro i
  simp only [linkDown, List.getElem?_map, List.getElem?_mapIdx, Option.map_map]
  rfl

theorem length_renumber (dropped : Field → Bool) (done : List (Option Nat)) (next : Nat)
    (fields : List Field) :
    (renumber dropped done next fields).length = done.length + fields.length := by
  induction fields generalizing done next with
  | nil => rfl
  | cons f rest ih =>
    simp only [renumber]
    split <;> simp only [ih, List.length_append, List.length_cons, List.length_nil] <;> omega

/-- The fields that stay, in their order. -/
def keptFields (rules : Rules) (fields : List Field) : List Field :=
  ((fields.zip (renumber (isDropped rules.config.fieldProcessing) [] 0 fields)).filter
    fun (_, n) => n.isSome).map (·.1)

theorem keptFields_sublist (rules : Rules) (fields : List Field) :
    (keptFields rules fields).Sublist fields := by
  have hlen := length_renumber (isDropped rules.config.fieldProcessing) [] 0 fields
  have hzip : (fields.zip (renumber (isDropped rules.config.fieldProcessing) [] 0 fields)).map
      Prod.fst = fields := List.map_fst_zip (by rw [hlen]; simp)
  have hsub := (List.filter_sublist (p := fun x : Field × Option Nat => x.2.isSome)
    (l := fields.zip (renumber (isDropped rules.config.fieldProcessing) [] 0 fields))).map (·.1)
  rwa [hzip] at hsub

theorem map_unlinked_prune (rules : Rules) (fields : List Field) :
    (prune rules fields).map Field.unlinked = (keptFields rules fields).map Field.unlinked := by
  simp only [prune, map_unlinked_linkDown, keptFields, List.map_map]
  rfl

/-- Fields that are not dropped and describe no other field stay. -/
theorem exists_renumber_eq {dropped : Field → Bool} {p : Field → Bool} {fields : List Field}
    (h : ∀ f ∈ fields, p f = true → dropped f = false ∧ f.host = none)
    (done : List (Option Nat)) (next : Nat) :
    ∃ numbers, renumber dropped done next fields = done ++ numbers ∧
      (((fields.zip numbers).filter fun (_, n) => n.isSome).map (·.1)).filter p =
        fields.filter p := by
  induction fields generalizing done next with
  | nil => exact ⟨[], by simp [renumber], rfl⟩
  | cons f rest ih =>
    have hrest : ∀ g ∈ rest, p g = true → dropped g = false ∧ g.host = none :=
      fun g hg => h g (List.mem_cons_of_mem _ hg)
    rw [renumber]
    split
    · obtain ⟨numbers, he, hf⟩ := ih hrest (done ++ [some next]) (next + 1)
      refine ⟨some next :: numbers, by rw [he, List.append_assoc]; rfl, ?_⟩
      simp only [List.zip_cons_cons, List.filter_cons, Option.isSome_some, ↓reduceIte,
        List.map_cons, hf]
    · rename_i hdrop
      obtain ⟨numbers, he, hf⟩ := ih hrest (done ++ [none]) next
      refine ⟨none :: numbers, by rw [he, List.append_assoc]; rfl, ?_⟩
      have hp : p f = false := by
        cases hp : p f with
        | false => rfl
        | true =>
          obtain ⟨hd, hh⟩ := h f List.mem_cons_self hp
          simp [hd, hh] at hdrop
      simp only [List.zip_cons_cons, List.filter_cons, Option.isSome_none, Bool.false_eq_true,
        ↓reduceIte, hp, hf]

/-- With nothing to drop, only condition names could go. -/
theorem filter_keptFields {rules : Rules} {fields : List Field}
    (hf : rules.config.fieldProcessing.includeFillers = true)
    (hx : rules.config.fieldProcessing.excludeFieldNames = [])
    (hh : ∀ f ∈ fields, f.isCondition = false → f.host = none) :
    ((keptFields rules fields).filter fun f => !f.isCondition) =
      fields.filter fun f => !f.isCondition := by
  have hdrop : ∀ f, isDropped rules.config.fieldProcessing f = false := by
    intro f
    simp [isDropped, hf, hx]
  obtain ⟨numbers, he, hk⟩ := exists_renumber_eq (p := fun f => !f.isCondition)
    (fun f hm hp => ⟨hdrop f, hh f hm (by simpa using hp)⟩) [] 0
  rw [keptFields, he]
  exact hk

/-- A field that stays is one of the fields before, but for its links. -/
theorem exists_unlinked_eq_of_mem_prune {rules : Rules} {fields : List Field} {f : Field}
    (h : f ∈ prune rules fields) : ∃ g ∈ fields, g.unlinked = f.unlinked := by
  have hm : f.unlinked ∈ (prune rules fields).map Field.unlinked := List.mem_map_of_mem h
  rw [map_unlinked_prune] at hm
  obtain ⟨g, hg, he⟩ := List.mem_map.1 hm
  exact ⟨g, (keptFields_sublist rules fields).subset hg, he⟩

/-- A field of a record is one of its walk, but for its links and overlays. -/
theorem exists_slot_of_mem_ofWalk {rules : Rules} {w : Walk} {f : Field}
    (h : f ∈ (ofWalk rules w).fields) :
    ∃ slot ∈ w.slots, { slot.field.unlinked with overlays := f.overlays } = f.unlinked := by
  obtain ⟨g, hg, he⟩ := exists_unlinked_eq_of_mem_prune h
  obtain ⟨i, hi, rfl⟩ := List.mem_mapIdx.1 hg
  obtain ⟨slot, hs, hf⟩ := List.mem_map.1 (List.getElem_mem hi)
  refine ⟨slot, hs, ?_⟩
  rw [← he, hf]
  have ho := congrArg Field.overlays he
  simp only [Field.unlinked] at ho
  simp only [Field.unlinked, ho]

end Record

end DataDivision
