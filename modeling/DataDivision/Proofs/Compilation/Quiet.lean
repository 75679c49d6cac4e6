import DataDivision.Proofs.Compilation.Outcome
import DataDivision.Proofs.Rules.Defaults

/-!
Copybooks without findings.

Overlaps are looked for in the order of first bytes.  That no two fields clash says the same without
an order, so `Quiet` can be decided by evaluation.
-/

namespace DataDivision.Compilation

/-- There is nothing to find in a source. -/
structure Quiet (rules : Rules) (source : Source) : Prop where
  matched : unmatchedLines rules source = []
  clean : ∀ label ∈ recordTypes rules source, (recordOf rules source label).diagnostics = []
  apart : ∀ label ∈ recordTypes rules source,
    (recordOf rules source label).fields.Pairwise fun f g => ¬ f.Clashes g
  uniform : lengthFindings rules source = []

theorem Quiet.findings_eq {rules : Rules} {source : Source} (h : Quiet rules source) :
    findings rules source = [] := by
  have hrecord : ∀ label ∈ recordTypes rules source, recordFindings rules source label = [] := by
    intro label hm
    have hnone : Layout.Overlap.find (recordOf rules source label).fields = [] := by
      refine (Layout.Overlap.find_eq_nil_iff fun f hf hb => ?_).2 (h.apart label hm)
      have := Record.end_eq_of_mem_ofEntries hf hb.1 hb.2
      have := hb.2
      omega
    simp [recordFindings, overlapFindings, h.clean label hm, hnone]
  simp only [findings, h.matched, h.uniform, List.map_nil, List.nil_append, List.append_nil]
  exact List.flatMap_eq_nil_iff.2 hrecord

theorem quiet_iff {rules : Rules} {source : Source} : Quiet rules source ↔
    unmatchedLines rules source = [] ∧
      (∀ label ∈ recordTypes rules source, (recordOf rules source label).diagnostics = [] ∧
        (recordOf rules source label).fields.Pairwise fun f g => ¬ f.Clashes g) ∧
      lengthFindings rules source = [] := by
  constructor
  · exact fun h => ⟨h.matched, fun label hm => ⟨h.clean label hm, h.apart label hm⟩, h.uniform⟩
  · exact fun ⟨hm, hr, hu⟩ =>
      ⟨hm, fun label hl => (hr label hl).1, fun label hl => (hr label hl).2, hu⟩

instance (rules : Rules) (source : Source) : Decidable (Quiet rules source) :=
  decidable_of_iff _ quiet_iff.symm

/-- A source in which there is nothing to find has layouts and no warning. -/
theorem Quiet.exists_compile {engine : Pattern.Engine} {config : Rules.Config} {rules : Rules}
    {source : Source} (h : Quiet rules source)
    (hi : Rules.interpretWith engine config = .ok rules) :
    ∃ c, compileWith engine config source = .ok c ∧ c.warnings = [] ∧
      ∀ label ∈ recordTypes rules source, (label, layoutOf rules source label) ∈ c.layouts := by
  simp only [compileWith, hi]
  rw [ofSource_eq, h.findings_eq]
  exact ⟨_, rfl, rfl, fun label hm => List.mem_map_of_mem hm⟩

end DataDivision.Compilation
