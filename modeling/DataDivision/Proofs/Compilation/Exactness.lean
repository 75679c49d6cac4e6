import DataDivision.Proofs.Compilation.Outcome
import DataDivision.Proofs.Record.Exact

/-!
Exact layouts.

A record is laid out exactly unless it reports that it is too large, and a copybook with such a
record has no layouts.  So every position in a layout is the exact one.
-/

namespace DataDivision.Compilation

def entriesOf (rules : Rules) (source : Source) (label : String) : List Entry :=
  Entry.ofLines rules.strategy.columns? (linesOf rules source label)

theorem recordOf_eq (rules : Rules) (source : Source) (label : String) :
    recordOf rules source label = Record.ofEntries rules (entriesOf rules source label) := rfl

/-- The layouts of a copybook are those of its record types. -/
theorem layouts_eq_of_ofSource {rules : Rules} {source : Source} {c : Compilation}
    (h : ofSource rules source = .ok c) :
    c.layouts = (recordTypes rules source).map fun label =>
      (label, layoutOf rules source label) := by
  rw [ofSource_eq] at h
  split at h
  · cases h
  · cases h
    rfl

/-- A layout of a copybook is that of a record type, whose record is not too large. -/
theorem layout_of_ofSource {rules : Rules} {source : Source} {c : Compilation}
    (h : ofSource rules source = .ok c) {label : String} {layout : Layout}
    (hm : (label, layout) ∈ c.layouts) :
    layout = layoutOf rules source label ∧
      (recordOf rules source label).reports .recordTooLarge = false := by
  have hj : ¬ Rejects rules source := by
    obtain ⟨-, ⟨-, he⟩ | ⟨hj, -⟩⟩ := ofSource_cases rules source
    · rw [he] at h
      cases h
    · exact hj
  rw [layouts_eq_of_ofSource h] at hm
  obtain ⟨_, hlabel, he⟩ := List.mem_map.1 hm
  cases he
  refine ⟨rfl, ?_⟩
  cases hr : (recordOf rules source label).reports .recordTooLarge with
  | false => rfl
  | true => exact absurd (.size label hlabel hr) hj

theorem layouts_of_ofSource {rules : Rules} {source : Source} {c : Compilation}
    (h : ofSource rules source = .ok c) {label : String} {layout : Layout}
    (hm : (label, layout) ∈ c.layouts) :
    layout.fields = (recordOf rules source label).fields ∧
      (recordOf rules source label).reports .recordTooLarge = false := by
  obtain ⟨rfl, hr⟩ := layout_of_ofSource h hm
  exact ⟨fields_layoutOf rules source label, hr⟩

/-- Compiling succeeds under rules that are accepted only. -/
theorem exists_rules_of_compile {engine : Pattern.Engine} {config : Rules.Config} {source : Source}
    {c : Compilation} (h : compileWith engine config source = .ok c) :
    ∃ rules, Rules.interpretWith engine config = .ok rules ∧ ofSource rules source = .ok c := by
  unfold compileWith at h
  cases hi : Rules.interpretWith engine config with
  | error cause =>
    rw [hi] at h
    cases h
  | ok rules =>
    rw [hi] at h
    exact ⟨rules, rfl, h⟩

/-- The exact walk always exists; a record reports that it is too large, once, exactly when a
position of that walk is beyond the largest record, and else it is the exact record; and the layouts
of a copybook are exact. -/
theorem positions_are_exact :
    (∀ rules entries, ∃ x, Record.Exact.run rules entries = some x ∧
      ((Record.ofEntries rules entries).reports .recordTooLarge = true ↔
        ∃ slot ∈ x.slots, slot.field.isCondition = false ∧
          Storage.maxRecordLength + 1 < slot.limit) ∧
      (Record.ofEntries rules entries).diagnostics.countP (·.code == some .recordTooLarge) ≤ 1 ∧
      ((Record.ofEntries rules entries).reports .recordTooLarge = false →
        Record.ofEntries rules entries = Record.ofWalk rules x)) ∧
    ∀ engine config source c, compileWith engine config source = .ok c → ∀ label layout,
      (label, layout) ∈ c.layouts → ∃ rules x, Rules.interpretWith engine config = .ok rules ∧
        Record.Exact.run rules (entriesOf rules source label) = some x ∧
        layout.fields = (Record.ofWalk rules x).fields ∧
        ∀ f ∈ layout.fields, 0 < f.storageLength → f.endPosition ≤ Storage.maxRecordLength := by
  constructor
  · intro rules entries
    obtain ⟨x, hx, hfol, hg⟩ := Record.Exact.exists_follows_run rules entries
    refine ⟨x, hx, Record.Exact.reports_tooLarge_iff hfol hg, ?_, Record.Exact.ofEntries_eq hfol⟩
    rw [Record.count_tooLarge]
    split <;> omega
  · intro engine config source c hc label layout hm
    obtain ⟨rules, hi, hs⟩ := exists_rules_of_compile hc
    obtain ⟨hf, hr⟩ := layouts_of_ofSource hs hm
    rw [recordOf_eq] at hf hr
    obtain ⟨x, hx, hfol, -⟩ := Record.Exact.exists_follows_run rules
      (entriesOf rules source label)
    refine ⟨rules, x, hi, hx, ?_, ?_⟩
    · rw [hf, Record.Exact.ofEntries_eq hfol hr]
    · rw [hf]
      exact fun f hm hb => Record.Exact.end_le_of_mem_ofEntries hr hm hb

/-- A table of pairs that fits: both repetitions count in the end of its last byte. -/
theorem positions_are_exact_nested_table :
    let lines := ["01 A.", "   05 B OCCURS 3.", "      10 C PIC X(2) OCCURS 4."].map String.toList
    ∃ c, compileWith .plain {} (Source.ofLines lines) = .ok c ∧
      (c.layouts.map fun p => p.2.fields.map (·.endPosition)) = [[24, 24, 8]] ∧
      ∀ label layout, (label, layout) ∈ c.layouts → ∀ f ∈ layout.fields, 0 < f.storageLength →
        f.endPosition ≤ Storage.maxRecordLength := by
  intro lines
  have hends : (match compileWith .plain {} (Source.ofLines lines) with
      | .ok c => c.layouts.map fun p => p.2.fields.map (·.endPosition)
      | .error _ => []) = [[24, 24, 8]] := by decide +kernel
  cases hc : compileWith .plain {} (Source.ofLines lines) with
  | error e => simp [hc] at hends
  | ok c =>
    rw [hc] at hends
    refine ⟨c, rfl, hends, fun label layout hm => ?_⟩
    obtain ⟨rules, x, -, -, -, hend⟩ := positions_are_exact.2 .plain {} _ c hc label layout hm
    exact hend

end DataDivision.Compilation
