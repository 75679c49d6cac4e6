import DataDivision.Proofs.Record.Hiding

/-!
Data items among fields.

The data items of a record form a record of their own when their links are renumbered
(`dataFields`): condition names refer to data items and are never referred to.  What is done with
whole lists of fields can be done with the data items alone: assigning overlays
(`dataFields_assignOverlays`) and dropping fields (`linkedData_prune`).
-/

namespace DataDivision

def OverlaySlot.relabel (s : Nat → Nat) (slot : OverlaySlot) : OverlaySlot :=
  ⟨s slot.base, s slot.alternative⟩

namespace Field

def isData (f : Field) : Bool := !f.isCondition

/-- The field with the links that lead back renumbered by `r`, its overlays renumbered by `s`, and
without the lists of what refers to it. -/
def relabel (r s : Nat → Nat) (f : Field) : Field :=
  { f with
    parent := f.parent.map r
    redefinesTarget := f.redefinesTarget.map r
    children := []
    conditionNames := []
    overlays := f.overlays.map (OverlaySlot.relabel s) }

end Field

namespace Record

/-- The number of data items before an index. -/
def dataRank (fields : List Field) : Nat → Nat := rank Field.isData fields

/-- The data items, linked by their indices among themselves. -/
def dataFields (s : Nat → Nat) (fields : List Field) : List Field :=
  (fields.filter Field.isData).map (Field.relabel (dataRank fields) s)

/-- The data items with the lists of their children. -/
def linkedData (s : Nat → Nat) (fields : List Field) : List Field :=
  (fields.filter Field.isData).map fun f =>
    { f.relabel (dataRank fields) s with children := f.children.map (dataRank fields) }

def HasData (fields : List Field) (i : Nat) : Prop :=
  ∃ f, fields[i]? = some f ∧ f.isData = true

section

variable {fields : List Field} {s : Nat → Nat} {i j k : Nat}

theorem isData_iff {f : Field} : f.isData = true ↔ f.isCondition = false := by
  simp [Field.isData]

theorem dataRank_lt_iff (hi : HasData fields i) (hj : HasData fields j) :
    dataRank fields i < dataRank fields j ↔ i < j := by
  obtain ⟨f, hf, hfd⟩ := hi
  obtain ⟨g, hg, hgd⟩ := hj
  exact rank_lt_iff hf hfd hg hgd

theorem dataRank_injective (hi : HasData fields i) (hj : HasData fields j)
    (h : dataRank fields i = dataRank fields j) : i = j := by
  have hij := dataRank_lt_iff hi hj
  have hji := dataRank_lt_iff hj hi
  omega

/-- Only the roles of fields matter for ranks. -/
theorem dataRank_congr {fields fields' : List Field}
    (h : fields.map Field.isData = fields'.map Field.isData) :
    dataRank fields = dataRank fields' := by
  have hview : ∀ (fs : List Field) i, dataRank fs i = rank id (fs.map Field.isData) i := fun fs i =>
    (rank_map (p := id) Field.isData fs i).symm
  funext i
  rw [hview, hview, h]

/-- The data items among some fields, each at its rank. -/
theorem getElem?_dataFields {x : Field} : (dataFields s fields)[k]? = some x ↔
    ∃ i f, fields[i]? = some f ∧ f.isData = true ∧ dataRank fields i = k ∧
      x = f.relabel (dataRank fields) s := by
  rw [dataFields, List.getElem?_map, Option.map_eq_some_iff]
  constructor
  · rintro ⟨f, hf, rfl⟩
    obtain ⟨i, hi, hd, rfl⟩ := getElem?_filter_iff.1 hf
    exact ⟨i, f, hi, hd, rfl, rfl⟩
  · rintro ⟨i, f, hi, hd, rfl, rfl⟩
    exact ⟨f, getElem?_filter_rank hi hd, rfl⟩

theorem getElem?_dataFields_rank (s : Nat → Nat) {f : Field} (hi : fields[i]? = some f)
    (hd : f.isData = true) :
    (dataFields s fields)[dataRank fields i]? = some (f.relabel (dataRank fields) s) :=
  getElem?_dataFields.2 ⟨i, f, hi, hd, rfl, rfl⟩

theorem IsLinked.host_of_isData (h : IsLinked fields) {f : Field} (hf : f ∈ fields)
    (hd : f.isData = true) : f.host = none := by
  obtain ⟨i, hi⟩ := List.mem_iff_getElem?.1 hf
  refine Option.eq_none_iff_forall_ne_some.2 fun j hj => ?_
  rw [isData_iff, ((h i f hi).host j hj).1] at hd
  cases hd

theorem IsLinked.hasData_parent (h : IsLinked fields) {f : Field} (hi : fields[i]? = some f)
    (hp : f.parent = some j) : f.isData = true ∧ HasData fields j := by
  obtain ⟨-, g, hg, hgroup, -⟩ := (h i f hi).parent j hp
  constructor
  · cases hc : f.isCondition with
    | false => exact isData_iff.2 hc
    | true =>
      rw [((h i f hi).condition hc).1] at hp
      cases hp
  · refine ⟨g, hg, ?_⟩
    exact isData_iff.2 (Field.isCondition_of_isGroup hgroup)

theorem IsLinked.hasData_target (h : IsLinked fields) {f : Field} (hi : fields[i]? = some f)
    (ht : f.redefinesTarget = some j) : HasData fields j := by
  obtain ⟨-, g, hg, hc, -⟩ := (h i f hi).target j ht
  exact ⟨g, hg, isData_iff.2 hc⟩

/-- The data items of linked fields are linked. -/
theorem isLinked_dataFields (s : Nat → Nat) (h : IsLinked fields) :
    IsLinked (dataFields s fields) := by
  intro k x hx
  obtain ⟨i, f, hi, hd, rfl, rfl⟩ := getElem?_dataFields.1 hx
  have hl := h i f hi
  have hat : ∀ {j : Nat} {g : Field}, fields[j]? = some g → g.isData = true →
      (dataFields s fields)[dataRank fields j]? = some (g.relabel (dataRank fields) s) :=
    fun hj hg => getElem?_dataFields_rank s hj hg
  refine ⟨fun p hp => ?_, fun hc => ?_, fun j hj => ?_, fun t ht => ?_⟩
  · obtain ⟨q, hq, rfl⟩ := Option.map_eq_some_iff.1 hp
    obtain ⟨hlt, g, hg, hgroup, hlevel⟩ := hl.parent q hq
    obtain ⟨-, g', hg', hgd⟩ := h.hasData_parent hi hq
    obtain rfl := Option.some.inj (hg.symm.trans hg')
    exact ⟨(dataRank_lt_iff ⟨g, hg, hgd⟩ ⟨f, hi, hd⟩).2 hlt, _, hat hg hgd, hgroup, hlevel⟩
  · exact absurd (isData_iff.1 hd ▸ hc : false = true) Bool.false_ne_true
  · have hnone : f.host = none := h.host_of_isData (List.mem_of_getElem? hi) hd
    exact absurd (hnone.symm.trans hj) (by simp)
  · obtain ⟨q, hq, rfl⟩ := Option.map_eq_some_iff.1 ht
    obtain ⟨hlt, g, hg, hc, hstart⟩ := hl.target q hq
    exact ⟨(dataRank_lt_iff ⟨g, hg, isData_iff.2 hc⟩ ⟨f, hi, hd⟩).2 hlt, _,
      hat hg (isData_iff.2 hc), hc, hstart⟩

/-! ## Links -/

theorem parentOf_dataFields (hi : HasData fields i) :
    parentOf (dataFields s fields) (dataRank fields i) =
      (parentOf fields i).map (dataRank fields) := by
  obtain ⟨f, hf, hd⟩ := hi
  rw [parentOf, parentOf, getElem?_dataFields_rank s hf hd, hf]
  rfl

theorem targetOf_dataFields (hi : HasData fields i) :
    targetOf (dataFields s fields) (dataRank fields i) =
      (targetOf fields i).map (dataRank fields) := by
  obtain ⟨f, hf, hd⟩ := hi
  rw [targetOf, targetOf, getElem?_dataFields_rank s hf hd, hf]
  rfl

theorem IsLinked.hasData_parentOf (h : IsLinked fields) (hp : parentOf fields i = some j) :
    HasData fields j := by
  obtain ⟨f, hf, hp⟩ := Option.bind_eq_some_iff.1 hp
  exact (h.hasData_parent hf hp).2

theorem IsLinked.hasData_targetOf (h : IsLinked fields) (ht : targetOf fields i = some j) :
    HasData fields j := by
  obtain ⟨f, hf, ht⟩ := Option.bind_eq_some_iff.1 ht
  exact h.hasData_target hf ht

theorem IsLinked.hasData_of_mem_chain (h : IsLinked fields) (hi : HasData fields i)
    (hj : j ∈ chain (parentOf fields) i) : HasData fields j := by
  induction i using Nat.strongRecOn with
  | _ i ih =>
    rw [chain] at hj
    rcases List.mem_cons.1 hj with rfl | hj
    · exact hi
    · split at hj
      · rename_i p hp
        split at hj
        · rename_i hlt
          exact ih p hlt (h.hasData_parentOf hp) hj
        · cases hj
      · cases hj

/-- The groups around a data item. -/
theorem chain_parentOf_dataFields (s : Nat → Nat) (h : IsLinked fields) (hi : HasData fields i) :
    chain (parentOf (dataFields s fields)) (dataRank fields i) =
      (chain (parentOf fields) i).map (dataRank fields) :=
  chain_map (P := HasData fields) (fun _ _ _ hj => h.hasData_parentOf hj)
    (fun _ hi => parentOf_dataFields hi) (fun _ _ hi hj => dataRank_lt_iff hi hj) hi

/-- The base of the storage of a data item. -/
theorem baseOf_dataFields (s : Nat → Nat) (h : IsLinked fields) (hi : HasData fields i) :
    baseOf (dataFields s fields) (dataRank fields i) = dataRank fields (baseOf fields i) :=
  chainEnd_map (P := HasData fields) (fun _ _ _ hj => h.hasData_targetOf hj)
    (fun _ hi => targetOf_dataFields hi) (fun _ _ hi hj => dataRank_lt_iff hi hj) hi

theorem IsLinked.hasData_baseOf (h : IsLinked fields) (hi : HasData fields i) :
    HasData fields (baseOf fields i) := by
  induction i using Nat.strongRecOn with
  | _ i ih =>
    rw [baseOf, chainEnd]
    split
    · rename_i t ht
      split
      · rename_i hlt
        exact ih t hlt (h.hasData_targetOf ht)
      · exact hi
    · exact hi

/-- What refers to a data item, by rank. -/
theorem indicesOf_dataFields {p q : Field → Bool} (h : ∀ f ∈ fields,
      q f = (f.isData && p (f.relabel (dataRank fields) s))) :
    indicesOf (dataFields s fields) p = (indicesOf fields q).map (dataRank fields) := by
  have hfilter : (fields.zipIdx.filter fun x => q x.1) =
      (fields.zipIdx.filter fun x => x.1.isData).filter
        fun x => p (x.1.relabel (dataRank fields) s) := by
    rw [List.filter_filter]
    refine List.filter_congr fun x hx => ?_
    obtain ⟨f, i⟩ := x
    rw [List.mem_zipIdx_iff_getElem?] at hx
    rw [h f (List.mem_of_getElem? hx), Bool.and_comm]
  simp only [indicesOf, hfilter, dataFields, List.zipIdx_map, zipIdx_filter, List.filter_map,
    List.map_map]
  rfl

/-- What a name refers to is a data item. -/
theorem latestNamed_dataFields (s : Nat → Nat) (fields : List Field) (name : String) :
    latestNamed (dataFields s fields) name = (latestNamed fields name).map (dataRank fields) := by
  have hpred : (fun x : Field × Nat => decide (x.1.isData = true ∧
      (!x.1.isCondition && Text.sameIgnoringCase x.1.name name) = true)) =
        fun x => !x.1.isCondition && Text.sameIgnoringCase x.1.name name := by
    funext x
    cases h : x.1.isCondition <;> simp [Field.isData, h]
  rw [latestNamed, latestNamed, dataFields, List.zipIdx_map, zipIdx_filter, ← List.map_reverse,
    ← List.map_reverse, List.find?_map, List.find?_map, ← List.filter_reverse, List.find?_filter,
    Option.map_map, Option.map_map, Option.map_map]
  exact congrArg (fun p => (fields.zipIdx.reverse.find? p).map fun x => dataRank fields x.2) hpred

end

/-! ## Overlays -/

section

variable {fields : List Field} {s : Nat → Nat} {i j : Nat}

theorem mem_basesOf : j ∈ basesOf fields ↔
    ∃ i t, targetOf fields i = some t ∧ baseOf fields i = j := by
  simp only [basesOf, List.mem_filterMap, List.mem_range, Option.map_eq_some_iff]
  constructor
  · rintro ⟨i, -, t, ht, hb⟩
    exact ⟨i, t, ht, hb⟩
  · rintro ⟨i, t, ht, hb⟩
    obtain ⟨f, hf, -⟩ := Option.bind_eq_some_iff.1 ht
    exact ⟨i, (List.getElem?_eq_some_iff.1 hf).1, t, ht, hb⟩

/-- Condition names redefine nothing. -/
def OnlyDataRedefines (fields : List Field) : Prop :=
  ∀ f ∈ fields, f.isCondition = true → f.redefinesTarget = none

theorem mem_basesOf_dataFields (s : Nat → Nat) (h : IsLinked fields) (hc : OnlyDataRedefines fields)
    (hi : HasData fields i) :
    dataRank fields i ∈ basesOf (dataFields s fields) ↔ i ∈ basesOf fields := by
  rw [mem_basesOf, mem_basesOf]
  constructor
  · rintro ⟨k, t, ht, hb⟩
    obtain ⟨x, hx, -⟩ := Option.bind_eq_some_iff.1 ht
    obtain ⟨j, f, hf, hd, rfl, -⟩ := getElem?_dataFields.1 hx
    have hj : HasData fields j := ⟨f, hf, hd⟩
    rw [targetOf_dataFields hj, Option.map_eq_some_iff] at ht
    obtain ⟨u, hu, -⟩ := ht
    rw [baseOf_dataFields s h hj] at hb
    exact ⟨j, u, hu, dataRank_injective (h.hasData_baseOf hj) hi hb⟩
  · rintro ⟨j, t, ht, rfl⟩
    obtain ⟨f, hf, hr⟩ := Option.bind_eq_some_iff.1 ht
    have hd : f.isData = true := by
      cases hcond : f.isCondition with
      | false => exact isData_iff.2 hcond
      | true =>
        rw [hc f (List.mem_of_getElem? hf) hcond] at hr
        cases hr
    have hj : HasData fields j := ⟨f, hf, hd⟩
    exact ⟨dataRank fields j, dataRank fields t, by rw [targetOf_dataFields hj, ht]; rfl,
      baseOf_dataFields s h hj⟩

theorem slotOf?_dataFields (s : Nat → Nat) (h : IsLinked fields) (hc : OnlyDataRedefines fields)
    (hi : HasData fields i) :
    slotOf? (dataFields s fields) (basesOf (dataFields s fields)) (dataRank fields i) =
      (slotOf? fields (basesOf fields) i).map (OverlaySlot.relabel (dataRank fields)) := by
  have hne : dataRank fields (baseOf fields i) ≠ dataRank fields i ↔ baseOf fields i ≠ i :=
    not_congr ⟨dataRank_injective (h.hasData_baseOf hi) hi, congrArg _⟩
  have hbases : (basesOf (dataFields s fields)).contains (dataRank fields i) = true ↔
      (basesOf fields).contains i = true := by
    rw [List.contains_iff_mem, List.contains_iff_mem]
    exact mem_basesOf_dataFields s h hc hi
  simp only [slotOf?, baseOf_dataFields s h hi, hne, hbases]
  split <;> rfl

/-- The parts that a data item and the groups around it have in redefined storage. -/
theorem overlaysOf_dataFields (s : Nat → Nat) (h : IsLinked fields) (hc : OnlyDataRedefines fields)
    (hi : HasData fields i) :
    overlaysOf (dataFields s fields) (basesOf (dataFields s fields)) (dataRank fields i) =
      (overlaysOf fields (basesOf fields) i).map (OverlaySlot.relabel (dataRank fields)) := by
  have hslots : (chain (parentOf fields) i).map (fun j =>
        slotOf? (dataFields s fields) (basesOf (dataFields s fields)) (dataRank fields j)) =
      (chain (parentOf fields) i).map fun j =>
        (slotOf? fields (basesOf fields) j).map (OverlaySlot.relabel (dataRank fields)) :=
    List.map_congr_left fun j hj =>
      slotOf?_dataFields s h hc (h.hasData_of_mem_chain hi hj)
  have hparts := congrArg (List.filterMap id) hslots
  rw [List.filterMap_map, List.filterMap_map] at hparts
  rw [overlaysOf, overlaysOf, chain_parentOf_dataFields s h hi, List.filterMap_map,
    List.map_filterMap]
  exact hparts

theorem dataRank_assignOverlays (fields : List Field) :
    dataRank (assignOverlays fields) = dataRank fields := by
  refine dataRank_congr (List.ext_getElem? fun k => ?_)
  rw [List.getElem?_map, List.getElem?_map, getElem?_assignOverlays, Option.map_map]
  rfl

/-- Overlays can be assigned to the data items alone. -/
theorem dataFields_assignOverlays (s : Nat → Nat) (h : IsLinked fields)
    (hc : OnlyDataRedefines fields) :
    dataFields (dataRank fields) (assignOverlays fields) =
      assignOverlays (dataFields s fields) := by
  refine List.ext_getElem? fun k => Option.ext fun x => ?_
  rw [getElem?_assignOverlays, Option.map_eq_some_iff, getElem?_dataFields,
    dataRank_assignOverlays]
  constructor
  · rintro ⟨i, f', hf, hd, rfl, rfl⟩
    rw [getElem?_assignOverlays, Option.map_eq_some_iff] at hf
    obtain ⟨f, hf, rfl⟩ := hf
    refine ⟨_, getElem?_dataFields_rank s hf hd, ?_⟩
    rw [overlaysOf_dataFields s h hc ⟨f, hf, hd⟩]
    rfl
  · rintro ⟨x, hx, rfl⟩
    obtain ⟨i, f, hf, hd, rfl, rfl⟩ := getElem?_dataFields.1 hx
    refine ⟨i, _, (getElem?_assignOverlays fields i).trans (congrArg _ hf), hd, rfl, ?_⟩
    rw [overlaysOf_dataFields s h hc ⟨f, hf, hd⟩]
    rfl

end

/-! ## Dropping fields -/

/-- Filtering by what stands beside the members. -/
theorem map_filter_zip {α β : Type} {p : α → Bool} {q : β → Bool} {xs : List α} {ys : List β}
    (h : ys.map q = xs.map p) :
    ((xs.zip ys).filter fun x => q x.2).map (·.1) = xs.filter p := by
  induction xs generalizing ys with
  | nil => rfl
  | cons x xs ih =>
    obtain ⟨y, ys, rfl, hy, hys⟩ := List.map_eq_cons_iff.1 h
    rw [List.zip_cons_cons]
    by_cases hx : p x = true
    · rw [List.filter_cons_of_pos (by rw [hy]; exact hx), List.filter_cons_of_pos hx, List.map_cons,
        ih hys]
    · rw [List.filter_cons_of_neg (by rw [hy]; exact hx), List.filter_cons_of_neg hx, ih hys]

/-- The fields that stay, with their new links. -/
def relinked (rules : Rules) (fields : List Field) : List Field :=
  (fields.filter (stays rules.config.fieldProcessing fields)).map
    (relink rules fields (numbersOf rules fields))

theorem prune_eq_linkDown (rules : Rules) {fields : List Field} (h : IsLinked fields) :
    prune rules fields = linkDown (relinked rules fields) := by
  have hkept := map_filter_zip (map_isSome_numbersOf rules h)
  rw [relinked, ← hkept, List.map_map]
  rfl

section

variable {fields : List Field} {s : Nat → Nat} {i j : Nat}

/-- A data item among some fields stays if and only if it stays among the data items. -/
theorem stays_relabel (processing : Rules.FieldProcessing) (r s : Nat → Nat) (h : IsLinked fields)
    {f : Field} (hf : f ∈ fields) (hd : f.isData = true) (others : List Field) :
    stays processing others (f.relabel r s) = stays processing fields f := by
  have hnone := h.host_of_isData hf hd
  have hnone' : (f.relabel r s).host = none := hnone
  rw [stays, stays, hnone, hnone']
  rfl

theorem dataRank_relinked (rules : Rules) (fields : List Field) (i : Nat) :
    dataRank (relinked rules fields) (rank (stays rules.config.fieldProcessing fields) fields i) =
      rank (fun f => stays rules.config.fieldProcessing fields f && f.isData) fields i := by
  rw [dataRank, relinked, rank_map, ← rank_filter]
  rfl

/-- The image of a data item among the data items. -/
theorem image?_dataFields (rules : Rules) (s : Nat → Nat) (h : IsLinked fields)
    (hi : HasData fields i) :
    image? rules.config.fieldProcessing (dataFields s fields) (dataRank fields i) =
      (image? rules.config.fieldProcessing fields i).map (dataRank (relinked rules fields)) := by
  obtain ⟨f, hf, hd⟩ := hi
  have hstays := stays_relabel rules.config.fieldProcessing (dataRank fields) s h
    (List.mem_of_getElem? hf) hd (dataFields s fields)
  have hrank : rank (stays rules.config.fieldProcessing (dataFields s fields)) (dataFields s fields)
      (dataRank fields i) = rank (fun f => stays rules.config.fieldProcessing fields f && f.isData)
        fields i := by
    rw [dataFields, rank_map, dataRank, rank_filter]
    refine rank_congr (fun g hg => ?_) i
    cases hgd : g.isData with
    | false => simp
    | true =>
      rw [Bool.true_and, Bool.and_true]
      exact stays_relabel _ _ _ h hg hgd _
  rw [image?, image?, getElem?_dataFields_rank s hf hd, hf, Option.any_some, Option.any_some,
    hstays, hrank]
  split
  · rw [Option.map_some, dataRank_relinked]
  · rfl

theorem keptParent_dataFields (rules : Rules) (s : Nat → Nat) (h : IsLinked fields) {f : Field}
    (hf : fields[i]? = some f) (hd : f.isData = true) :
    keptParent (dataFields s fields) (numbersOf rules (dataFields s fields))
        (f.relabel (dataRank fields) s) =
      (keptParent fields (numbersOf rules fields) f).map (dataRank (relinked rules fields)) := by
  have hc : f.isCondition = false := isData_iff.1 hd
  have hc' : (f.relabel (dataRank fields) s).isCondition = false := hc
  rw [keptParent, keptParent, hc, hc', renumbered_eq_image? rules h,
    renumbered_eq_image? rules (isLinked_dataFields s h)]
  simp only [Bool.false_eq_true, ↓reduceIte, Field.relabel]
  cases hp : f.parent with
  | none => rfl
  | some p =>
    have hdata := (h.hasData_parent hf hp).2
    have himages : (chain (parentOf fields) p).map (fun j =>
          image? rules.config.fieldProcessing (dataFields s fields) (dataRank fields j)) =
        (chain (parentOf fields) p).map fun j => (image? rules.config.fieldProcessing fields j).map
          (dataRank (relinked rules fields)) :=
      List.map_congr_left fun j hj =>
        image?_dataFields rules s h (h.hasData_of_mem_chain hdata hj)
    have hfirst := congrArg (List.findSome? id) himages
    rw [List.findSome?_map, List.findSome?_map] at hfirst
    simp only [Option.map_some, Option.bind_some, chain_parentOf_dataFields s h hdata,
      List.findSome?_map, List.map_findSome?]
    exact hfirst

/-- Linking a data item anew can be done among the data items alone. -/
theorem relink_dataFields (rules : Rules) (s : Nat → Nat) (h : IsLinked fields) {f : Field}
    (hf : f ∈ fields) (hd : f.isData = true) :
    relink rules (dataFields s fields) (numbersOf rules (dataFields s fields))
        (f.relabel (dataRank fields) s) =
      (relink rules fields (numbersOf rules fields) f).relabel
        (dataRank (relinked rules fields)) s := by
  obtain ⟨i, hi⟩ := List.mem_iff_getElem?.1 hf
  have htarget : (f.redefinesTarget.map (dataRank fields)).bind
        (renumbered (numbersOf rules (dataFields s fields))) =
      (f.redefinesTarget.bind (renumbered (numbersOf rules fields))).map
        (dataRank (relinked rules fields)) := by
    rw [renumbered_eq_image? rules h, renumbered_eq_image? rules (isLinked_dataFields s h)]
    cases ht : f.redefinesTarget with
    | none => rfl
    | some t => exact image?_dataFields rules s h (h.hasData_target hi ht)
  have hhost : f.host = none := h.host_of_isData hf hd
  rw [relink, relink, keptParent_dataFields rules s h hi hd]
  simp only [Field.relabel, htarget, hhost, Option.bind_none]

/-- The data items that stay are those that stay among the data items. -/
theorem relinked_dataFields (rules : Rules) (s : Nat → Nat) (h : IsLinked fields) :
    relinked rules (dataFields s fields) = dataFields s (relinked rules fields) := by
  have hdata : ∀ f : Field, (relink rules fields (numbersOf rules fields) f).isData = f.isData :=
    fun _ => rfl
  have hleft : (dataFields s fields).filter
      (stays rules.config.fieldProcessing (dataFields s fields)) =
      (fields.filter fun f => stays rules.config.fieldProcessing fields f && f.isData).map
        (Field.relabel (dataRank fields) s) := by
    conv => lhs; arg 2; rw [dataFields]
    rw [List.filter_map, List.filter_filter]
    congr 1
    refine List.filter_congr fun f hf => ?_
    cases hd : f.isData with
    | false => simp
    | true =>
      rw [Bool.and_true, Bool.and_true]
      exact stays_relabel _ _ _ h hf hd _
  have hright : (relinked rules fields).filter Field.isData =
      (fields.filter fun f => stays rules.config.fieldProcessing fields f && f.isData).map
        (relink rules fields (numbersOf rules fields)) := by
    rw [relinked, List.filter_map, List.filter_filter]
    congr 1
    refine List.filter_congr fun f _ => ?_
    rw [Function.comp_apply, hdata, Bool.and_comm]
  have hdatas : dataFields s (relinked rules fields) =
      (fields.filter fun f => stays rules.config.fieldProcessing fields f && f.isData).map
        fun f => (relink rules fields (numbersOf rules fields) f).relabel
          (dataRank (relinked rules fields)) s := by
    rw [dataFields, hright, List.map_map]
    rfl
  rw [hdatas, relinked, hleft, List.map_map]
  refine List.map_congr_left fun f hf => ?_
  obtain ⟨hm, hp⟩ := List.mem_filter.1 hf
  exact relink_dataFields rules s h hm (Bool.and_eq_true_iff.1 hp).2

theorem getElem?_linkDown (fields : List Field) (i : Nat) :
    (linkDown fields)[i]? = fields[i]?.map fun f : Field =>
      { f with
        children := indicesOf fields fun g => g.parent == some i
        conditionNames := indicesOf fields fun g => g.host == some i } := by
  rw [linkDown, List.getElem?_mapIdx]

theorem dataRank_linkDown (fields : List Field) : dataRank (linkDown fields) = dataRank fields := by
  refine dataRank_congr (List.ext_getElem? fun k => ?_)
  rw [List.getElem?_map, List.getElem?_map, getElem?_linkDown, Option.map_map]
  rfl

/-- Lists of what refers to fields do not matter for the links that lead back. -/
theorem isLinked_of_linkDown (h : IsLinked (linkDown fields)) : IsLinked fields := by
  have hkept : FieldsKept (linkDown fields) fields := by
    intro j g hj
    rw [getElem?_linkDown, Option.map_eq_some_iff] at hj
    obtain ⟨f, hf, rfl⟩ := hj
    exact ⟨f, hf, rfl, rfl, rfl, fun _ => rfl⟩
  intro i f hi
  have hl := (h i _ ((getElem?_linkDown fields i).trans (congrArg _ hi))).mono hkept
  exact ⟨hl.parent, hl.condition, hl.host, hl.target⟩

/-- The children of a data item, by rank. -/
theorem children_dataFields (s : Nat → Nat) (h : IsLinked fields) (hi : HasData fields i) :
    indicesOf (dataFields s fields) (fun g => g.parent == some (dataRank fields i)) =
      (indicesOf fields fun g => g.parent == some i).map (dataRank fields) := by
  refine indicesOf_dataFields fun f hf => ?_
  obtain ⟨k, hk⟩ := List.mem_iff_getElem?.1 hf
  cases hp : f.parent with
  | none => simp [Field.relabel, hp]
  | some p =>
    obtain ⟨hd, hdata⟩ := h.hasData_parent hk hp
    have hiff : dataRank fields p = dataRank fields i ↔ p = i :=
      ⟨dataRank_injective hdata hi, congrArg _⟩
    rw [Bool.eq_iff_iff]
    simp [hd, Field.relabel, hp, hiff]

/-- No data item describes another one. -/
theorem conditionNames_dataFields (s : Nat → Nat) (h : IsLinked fields) (k : Nat) :
    (indicesOf (dataFields s fields) fun g => g.host == some k) = [] := by
  have hnone : ∀ f ∈ fields, f.isData = true → f.host = none := fun f hf =>
    h.host_of_isData hf
  have hempty : indicesOf fields (fun _ => false) = [] := by
    simp [indicesOf]
  rw [indicesOf_dataFields (q := fun _ => false), hempty, List.map_nil]
  intro f hf
  cases hd : f.isData with
  | false => rfl
  | true => simp [Field.relabel, hnone f hf hd]

theorem linkedData_linkDown (s : Nat → Nat) (h : IsLinked fields) :
    linkedData s (linkDown fields) = linkDown (dataFields s fields) := by
  refine List.ext_getElem? fun k => Option.ext fun x => ?_
  rw [getElem?_linkDown, Option.map_eq_some_iff, linkedData, List.getElem?_map,
    Option.map_eq_some_iff, dataRank_linkDown]
  constructor
  · rintro ⟨f', hf', rfl⟩
    obtain ⟨i, hi, hd, rfl⟩ := getElem?_filter_iff.1 hf'
    have hrank : ((linkDown fields).take i).countP Field.isData = dataRank fields i := by
      rw [← dataRank_linkDown, dataRank, rank]
    rw [getElem?_linkDown, Option.map_eq_some_iff] at hi
    obtain ⟨f, hf, rfl⟩ := hi
    rw [hrank]
    refine ⟨_, getElem?_dataFields_rank s hf hd, ?_⟩
    rw [children_dataFields s h ⟨f, hf, hd⟩, conditionNames_dataFields s h]
    rfl
  · rintro ⟨y, hy, rfl⟩
    obtain ⟨i, f, hf, hd, rfl, rfl⟩ := getElem?_dataFields.1 hy
    have hi := (getElem?_linkDown fields i).trans (congrArg _ hf)
    have hat : ((linkDown fields).filter Field.isData)[dataRank (linkDown fields) i]? = some _ :=
      getElem?_filter_rank hi hd
    rw [dataRank_linkDown] at hat
    refine ⟨_, hat, ?_⟩
    rw [children_dataFields s h ⟨f, hf, hd⟩, conditionNames_dataFields s h]
    rfl

/-- Fields can be dropped among the data items alone. -/
theorem linkedData_prune (rules : Rules) (s : Nat → Nat) (h : IsLinked fields) :
    linkedData s (prune rules fields) = prune rules (dataFields s fields) := by
  have hl : IsLinked (relinked rules fields) :=
    isLinked_of_linkDown (prune_eq_linkDown rules h ▸ isLinked_prune h)
  rw [prune_eq_linkDown rules h, linkedData_linkDown s hl, ← relinked_dataFields rules s h,
    prune_eq_linkDown rules (isLinked_dataFields s h)]

end

end Record

end DataDivision
