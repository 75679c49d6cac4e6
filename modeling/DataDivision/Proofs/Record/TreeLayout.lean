import DataDivision.Proofs.Record.Findings
import DataDivision.Proofs.Record.Pruning
import DataDivision.Proofs.Record.Simulation
import DataDivision.Proofs.Rules.Defaults

/-!
The bytes of a forest.

A record whose entries declare a forest has the bytes that the recursive layout of the forest gives
its declarations, as long as it is not too large and no field is dropped.
-/

namespace DataDivision.Record

/-! ## Fields of a record -/

/-- Only condition names describe other fields. -/
theorem host_eq_none_of_mem_run (rules : Rules) (entries : List Entry) :
    ∀ slot ∈ (Walk.run rules entries).slots, slot.field.isCondition = false →
      slot.field.host = none := by
  have hpush : ∀ {w : Walk} {field : Field} {span : Span},
      (field.isCondition = false → field.host = none) →
      (∀ slot ∈ w.slots, slot.field.isCondition = false → slot.field.host = none) →
      ∀ slot ∈ (w.push field span).slots, slot.field.isCondition = false →
        slot.field.host = none := by
    intro w field span hf h slot hm
    rcases List.mem_append.1 hm with hm | hm
    · exact h slot hm
    · rw [List.mem_singleton.1 hm]
      exact hf
  refine Walk.run_induct (P := fun w => ∀ slot ∈ w.slots, slot.field.isCondition = false →
    slot.field.host = none) (by simp [Walk.start]) ?_ ?_ ?_ ?_ entries
  · intro w level s hs h
    cases s with
    | overlay overlay outer => exact h
    | group group outer =>
      cases hi : w.slots[group.index]? with
      | none => simpa [Walk.close, Walk.closeGroup, hi] using h
      | some slot =>
        rw [Walk.close, Walk.closeGroup_of_some outer hi]
        intro t ht
        simp only [Walk.finishGroup, Walk.slots_bound] at ht
        rcases List.mem_or_eq_of_mem_set ht with ht | rfl
        · exact h t ht
        · exact h slot (List.mem_of_getElem? hi)
  · exact fun w d _ h => h
  · intro w d line span i slot hk _ _ h
    refine hpush ?_ h
    intro hc
    simp [Walk.conditionOf, Field.isCondition, Field.setExtent, Walk.kind_ofDescriptor, hk] at hc
  · intro w x hk _ h
    have hfield : (w.fieldOf x (w.redefine rules x.descriptor x.entry.span).1).host = none :=
      Walk.host_ofDescriptor _ _
    unfold Walk.declare
    cases x.descriptor.kind with
    | group => exact hpush (fun _ => hfield) (by simpa using h)
    | condition =>
      simp only [Walk.addElementary_eq]
      exact hpush (fun _ => hfield) (by simpa using h)
    | elementary =>
      simp only [Walk.addElementary_eq]
      exact hpush (fun _ => hfield) (by simpa using h)

theorem extentsOf_map_unlinked (fields : List Field) :
    extentsOf (fields.map Field.unlinked) = extentsOf fields := by
  simp only [extentsOf, List.filter_map, List.map_map]
  rfl

theorem extentsOf_assignOverlays (fields : List Field) :
    extentsOf (assignOverlays fields) = extentsOf fields := by
  have hmap : (assignOverlays fields).map (fun f => { f with overlays := [] }) =
      fields.map fun f => { f with overlays := [] } := by
    apply List.ext_getElem?
    intro i
    simp only [assignOverlays, List.getElem?_map, List.getElem?_mapIdx, Option.map_map]
    rfl
  have hview : ∀ fs : List Field,
      extentsOf (fs.map fun f => { f with overlays := [] }) = extentsOf fs := by
    intro fs
    simp only [extentsOf, List.filter_map, List.map_map]
    rfl
  rw [← hview, hmap, hview]

/-- With nothing to drop, a record has the bytes that its walk has laid out. -/
theorem extentsOf_ofWalk {rules : Rules} {w : Walk}
    (hf : rules.config.fieldProcessing.includeFillers = true)
    (hx : rules.config.fieldProcessing.excludeFieldNames = [])
    (hh : ∀ slot ∈ w.slots, slot.field.isCondition = false → slot.field.host = none) :
    extentsOf (ofWalk rules w).fields = extentsOf w.fields := by
  have hkept : ((keptFields rules (assignOverlays w.fields)).filter fun f => !f.isCondition) =
      (assignOverlays w.fields).filter fun f => !f.isCondition := by
    refine filter_keptFields hf hx fun f hm hc => ?_
    obtain ⟨i, hi, rfl⟩ := List.mem_mapIdx.1 hm
    obtain ⟨slot, hs, he⟩ := List.mem_map.1 (List.getElem_mem hi)
    rw [← he] at hc ⊢
    exact hh slot hs hc
  rw [← extentsOf_map_unlinked, ofWalk, map_unlinked_prune, extentsOf_map_unlinked,
    ← extentsOf_assignOverlays w.fields, extentsOf, hkept]
  rfl

/-! ## Forests -/

namespace Walk

theorem matches_start (rules : Rules) :
    (start rules).Matches 0 [] ⟨[], rules.startPosition + rules.codeWidth, []⟩ := by
  constructor <;> simp [start]

/-- A walk over the entries of a forest lays the forest out. -/
theorem exists_laid_run {rules : Rules} {f : Forest} {level : Nat} {entries : List Entry}
    (hr : rules.config.fieldProcessing.processRedefines = true)
    (he : entries.filterMap Entry.declaration? = f.toList) (hf : f.WellFormed level [])
    (hfit : (run rules entries).tooLarge = false) :
    ∃ σ, Laid rules none none ⟨[], rules.startPosition + rules.codeWidth, []⟩ f σ ∧
      (run rules entries).slots = σ.slots ∧ (run rules entries).cursor = σ.cursor := by
  have hstart : (start rules).closeScopes level = start rules := closeScopes_of_none rfl
  have hrun : ((entries.foldl (addEntry rules) (start rules)).closeScopes level).closeScopes 0 =
      run rules entries := closeScopes_closeScopes (Nat.zero_le level) _
  have hopen : ((entries.foldl (addEntry rules) (start rules)).closeScopes level).tooLarge =
      false := by
    cases hover : ((entries.foldl (addEntry rules) (start rules)).closeScopes level).tooLarge with
    | false => rfl
    | true =>
      rw [← hrun] at hfit
      exact (tooLarge_closeScopes 0 hover).symm.trans hfit
  obtain ⟨σ, hlaid, hlays⟩ := exists_laid hr f he hf (Nested.start rules)
    (hstart.symm ▸ matches_start rules) hopen
  rw [hstart] at hlaid hlays
  have hnone : nextScope? 0
      ((entries.foldl (addEntry rules) (start rules)).closeScopes level).groups
      ((entries.foldl (addEntry rules) (start rules)).closeScopes level).overlays = none := by
    rw [hlays.groups_eq, hlays.overlays_eq]
    rfl
  rw [closeScopes_of_none hnone] at hrun
  rw [← hrun]
  exact ⟨σ, hlaid, hlays.slots_eq, hlays.cursor_eq⟩

end Walk

/-! ## A forest with a redefinition -/

/-- A group with an item, a table that redefines the item, and a filler. -/
def redefiningTable : List Entry :=
  let lines := ["01 A.", "   05 B PIC X(4).", "      88 C VALUE 'X'.",
    "   05 D REDEFINES B OCCURS 2.", "      10 E PIC X(3).", "   05 FILLER PIC X."]
  Entry.ofLines none (Source.ofLines (lines.map String.toList)).lines

theorem exists_forest_redefiningTable : ∃ f : Forest, f.WellFormed 1 [] ∧ f.Contiguous [] ∧
    redefiningTable.filterMap Entry.declaration? = f.toList := by
  have hview : (redefiningTable.filterMap Entry.declaration?).map (fun d =>
      (d.descriptor.kind, d.descriptor.level, d.name, d.descriptor.redefines)) =
      [(.group, 1, "A", none), (.elementary, 5, "B", none), (.group, 5, "D", some "B"),
        (.elementary, 10, "E", none), (.elementary, 5, "FILLER", none)] := by decide +kernel
  simp only [List.map_eq_cons_iff, List.map_eq_nil_iff, Prod.mk.injEq] at hview
  obtain ⟨a, _, hlist, ⟨hak, hal, -, har⟩, b, _, rfl, ⟨hbk, hbl, hbn, hbr⟩, d, _, rfl,
    ⟨hdk, hdl, -, hdr⟩, e, _, rfl, ⟨hek, hel, -, her⟩, g, _, rfl, ⟨hgk, hgl, -, hgr⟩, rfl⟩ := hview
  have hsame : Text.sameIgnoringCase b.name "B" = true := by
    rw [hbn]
    decide +kernel
  have hplain : ∀ {x : Declaration}, x.descriptor.redefines = none →
      (∀ earlier, x.RedefinesSibling earlier) ∧ ∀ siblings, x.IsContiguous siblings := by
    intro x hx
    constructor <;> intro _ name hn <;> rw [hx] at hn <;> cases hn
  have hredefines : d.RedefinesSibling [(b.name, true)] := by
    intro name hn
    obtain rfl : "B" = name := Option.some.inj (hdr.symm.trans hn)
    exact ⟨(b.name, true), by simp [hsame], rfl⟩
  have hcontiguous : d.IsContiguous [(b.name, 0)] := by
    intro name hn
    obtain rfl : "B" = name := Option.some.inj (hdr.symm.trans hn)
    simp [hsame]
  refine ⟨.group a (.item b (.group d (.item e .nil) (.item g .nil))) .nil, ?_, ?_, hlist⟩
  · exact ⟨hak, hal, (hplain har).1 _, ⟨5, by decide, hbk, hbl, (hplain hbr).1 _, hdk, hdl,
      hredefines, ⟨10, by decide, hek, hel, (hplain her).1 _, trivial⟩, hgk, hgl, (hplain hgr).1 _,
      trivial⟩, trivial⟩
  · have hb : b.inherited [] 0 = 0 := by simp [Declaration.inherited, Declaration.redefined?, hbr]
    refine ⟨(hplain har).2 _, ⟨(hplain hbr).2 _, ?_, ⟨(hplain her).2 _, trivial⟩,
      (hplain hgr).2 _, trivial⟩, trivial⟩
    rw [List.length_nil, hb]
    exact hcontiguous

/-! ## The bytes of a record -/

/-- A record that is not too large and keeps all fields has the bytes of the recursive layout of its
declarations. -/
theorem extents_of_forest {rules : Rules} {f : Forest} {level : Nat} {entries : List Entry}
    (hr : rules.config.fieldProcessing.processRedefines = true)
    (hi : rules.config.fieldProcessing.includeFillers = true)
    (hx : rules.config.fieldProcessing.excludeFieldNames = [])
    (hf : f.WellFormed level []) (he : entries.filterMap Entry.declaration? = f.toList)
    (hs : (ofEntries rules entries).reports .recordTooLarge = false) :
    (((ofEntries rules entries).fields.filter fun g => !g.isCondition).map fun g =>
        (g.name, g.startPosition, g.endPosition)) =
      f.extents rules none [] (rules.startPosition + rules.codeWidth) ∧
    (ofEntries rules entries).recordEnd =
      f.reach rules none [] (rules.startPosition + rules.codeWidth) - 1 := by
  rw [reports_tooLarge] at hs
  obtain ⟨σ, hlaid, hslots, hcursor⟩ := Walk.exists_laid_run hr he hf hs
  obtain ⟨new, hnew, hextents⟩ := hlaid.extents_eq
  have hfields : extentsOf (ofEntries rules entries).fields =
      extentsOf (Walk.run rules entries).fields :=
    extentsOf_ofWalk hi hx (host_eq_none_of_mem_run rules entries)
  constructor
  · refine hfields.trans ?_
    rw [Walk.fields, hslots, hnew]
    exact hextents
  · rw [ofEntries, ofWalk, hcursor, hlaid.cursor_eq]
    rfl

/-- The table reaches further than the item that it redefines, and the filler starts behind it. -/
theorem extents_of_forest_redefiningTable : ∃ (rules : Rules) (f : Forest),
    Rules.interpretWith .plain { fieldProcessing := { includeFillers := true } } = .ok rules ∧
    f.WellFormed 1 [] ∧ redefiningTable.filterMap Entry.declaration? = f.toList ∧
    (ofEntries rules redefiningTable).reports .recordTooLarge = false ∧
    f.extents rules none [] (rules.startPosition + rules.codeWidth) =
      [("A", 1, 7), ("B", 1, 4), ("D", 1, 6), ("E", 1, 3), ("FILLER", 7, 7)] := by
  have hrules : ∃ rules : Rules,
      Rules.interpretWith .plain { fieldProcessing := { includeFillers := true } } = .ok rules ∧
      rules.config.fieldProcessing.processRedefines = true ∧
      rules.config.fieldProcessing.includeFillers = true ∧
      rules.config.fieldProcessing.excludeFieldNames = [] ∧
      (ofEntries rules redefiningTable).reports .recordTooLarge = false ∧
      (((ofEntries rules redefiningTable).fields.filter fun g => !g.isCondition).map fun g =>
        (g.name, g.startPosition, g.endPosition)) =
        [("A", 1, 7), ("B", 1, 4), ("D", 1, 6), ("E", 1, 3), ("FILLER", 7, 7)] :=
    ⟨_, rfl, rfl, rfl, rfl, by decide +kernel, by decide +kernel⟩
  obtain ⟨rules, hi, hr, hfill, hx, hs, hfields⟩ := hrules
  obtain ⟨f, hf, -, he⟩ := exists_forest_redefiningTable
  refine ⟨rules, f, hi, hf, he, hs, ?_⟩
  rw [← (extents_of_forest hr hfill hx hf he hs).1, hfields]

end DataDivision.Record
