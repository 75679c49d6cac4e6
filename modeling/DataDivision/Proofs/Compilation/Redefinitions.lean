import DataDivision.Proofs.Compilation.Outcome
import DataDivision.Proofs.Record.Alternatives

/-!
Redefinitions raise no alarm.

Where all redefinitions between an entry and the entry it redefines lay out the same storage, no
overlap is found, whichever fields the rules drop.
-/

namespace DataDivision.Compilation

/-- A record of contiguous declarations has no overlaps and makes no finding about any. -/
theorem no_overlap_of_contiguous {rules : Rules} {f : Forest} {level : Nat}
    {entries : List Entry} (hr : rules.config.fieldProcessing.processRedefines = true)
    (hf : f.WellFormed level []) (hc : f.Contiguous [])
    (he : entries.filterMap Entry.declaration? = f.toList)
    (hs : (Record.ofEntries rules entries).reports .recordTooLarge = false) :
    Layout.Overlap.find (Record.ofEntries rules entries).fields = [] ∧
      ∀ source, overlapFindings rules source (Record.ofEntries rules entries).fields = [] := by
  have hnone := Record.find_eq_nil_of_forest hr hf hc he hs
  refine ⟨hnone, fun source => ?_⟩
  unfold overlapFindings
  rw [hnone]
  cases rules.config.validation.validateFieldOverlaps <;> rfl

/-- The item is dropped and the table that redefines it stays, under rules that drop the filler as
well. -/
theorem no_overlap_of_contiguous_dropped_base : ∃ rules : Rules,
    Rules.interpretWith .plain { fieldProcessing := { excludeFieldNames := ["B"] } } = .ok rules ∧
    (Record.ofEntries rules Record.redefiningTable).fields.map (·.name) = ["A", "D", "E"] ∧
    Layout.Overlap.find (Record.ofEntries rules Record.redefiningTable).fields = [] := by
  have hrules : ∃ rules : Rules,
      Rules.interpretWith .plain { fieldProcessing := { excludeFieldNames := ["B"] } } =
        .ok rules ∧
      rules.config.fieldProcessing.processRedefines = true ∧
      (Record.ofEntries rules Record.redefiningTable).reports .recordTooLarge = false ∧
      (Record.ofEntries rules Record.redefiningTable).fields.map (·.name) = ["A", "D", "E"] :=
    ⟨_, rfl, rfl, by decide +kernel, by decide +kernel⟩
  obtain ⟨rules, hi, hr, hs, hnames⟩ := hrules
  obtain ⟨f, hf, hc, he⟩ := Record.exists_forest_redefiningTable
  exact ⟨rules, hi, hnames, (no_overlap_of_contiguous hr hf hc he hs).1⟩

end DataDivision.Compilation
