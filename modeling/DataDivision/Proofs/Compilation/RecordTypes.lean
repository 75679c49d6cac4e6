import DataDivision.Proofs.Compilation.Exactness
import DataDivision.Proofs.Rules.Interpretation

/-!
Record types.

Classified lines are divided by record type, whatever types the rules give them: a line that no rule
recognizes is in the group of the fallback type, next to the lines that a rule sends there.  The
layouts and the counts of a compilation have these record types in the order of their first lines
(`lines_divided_by_record_type`).
-/

namespace DataDivision.Compilation

open Classification (Partition)

/-- The record type that a line is given: one for all lines, or that of the rule that recognizes
it. -/
def typeOf? (rules : Rules) (line : Line) : Option String :=
  match rules.layoutStrategy with
  | .single => some rules.fallback
  | .multi | .custom => rules.strategy.classify line.text

theorem divides_classify (rules : Rules) (source : Source) :
    (classify rules source).Divides (typeOf? rules) rules.fallback source.content := by
  unfold classify
  have htype : typeOf? rules = fun line => match rules.layoutStrategy with
    | .single => some rules.fallback
    | .multi | .custom => rules.strategy.classify line.text := rfl
  rw [htype]
  cases rules.layoutStrategy with
  | single => exact Classification.divides_single _ source.lines _
  | multi => exact Classification.divides_classify _ _ source.lines
  | custom => exact Classification.divides_classify _ _ source.lines

/-- Without classification there is one group at most, and it has all lines. -/
theorem eq_of_mem_records_single {label method : String} {lines : List Line}
    {r : String × List Line} (h : r ∈ (Partition.single label lines method).records) :
    r = (label, lines.filter fun line => !line.isComment) := by
  unfold Partition.single at h
  dsimp only at h
  split at h
  · cases h
  · exact List.mem_singleton.1 h

theorem classify_of_ne_single {rules : Rules} (h : rules.layoutStrategy ≠ .single)
    (source : Source) :
    classify rules source = Classification.classify rules.strategy rules.fallback source.lines := by
  unfold classify
  cases hl : rules.layoutStrategy with
  | single => exact absurd hl h
  | multi => rfl
  | custom => rfl

theorem classify_of_single {rules : Rules} (h : rules.layoutStrategy = .single)
    (source : Source) :
    classify rules source = Partition.single rules.fallback source.lines "single_layout" := by
  unfold classify
  rw [h]

/-- What a compilation says of its record types. -/
theorem record_types_of_ofSource {rules : Rules} {source : Source} {c : Compilation}
    (h : ofSource rules source = .ok c) :
    c.layouts.map (·.1) = (classify rules source).records.map (·.1) ∧
      (∀ r ∈ c.layouts, r.2.recordType = r.1) ∧
      c.recordCounts = (classify rules source).counts ∧
      c.unrecognizedLines =
        (classify rules source).unrecognized.map fun line => String.ofList line.text := by
  have hlayouts := layouts_eq_of_ofSource h
  rw [ofSource_eq] at h
  split at h
  · cases h
  · obtain rfl := Except.ok.inj h
    refine ⟨?_, fun r hr => ?_, rfl, ?_⟩
    · simp [records_classify, Function.comp_def]
    · obtain ⟨label, -, rfl⟩ := List.mem_map.1 hr
      rfl
    · rw [unrecognized_classify]

/-- Classified lines are divided by their record types, and so are the lines of a copybook: its
layouts and its counts have the record types in their order, be they those of the rules or a single
one. -/
theorem lines_divided_by_record_type :
    (∀ (strategy : Classification.Strategy) (fallback : String) (lines : List Line),
      (Classification.classify strategy fallback lines).Divides
        (fun line => strategy.classify line.text) fallback
        (lines.filter fun line => !line.isComment)) ∧
    ∀ (engine : Pattern.Engine) (config : Rules.Config) (source : Source) (c : Compilation),
      compileWith engine config source = .ok c →
      ∃ rules, Rules.interpretWith engine config = .ok rules ∧
        (classify rules source).Divides (typeOf? rules) rules.fallback source.content ∧
        c.layouts.map (·.1) = (classify rules source).records.map (·.1) ∧
        (∀ r ∈ c.layouts, r.2.recordType = r.1) ∧
        c.recordCounts = (classify rules source).counts ∧
        c.unrecognizedLines =
          (classify rules source).unrecognized.map (fun line => String.ofList line.text) ∧
        (rules.layoutStrategy ≠ .single → classify rules source =
          Classification.classify rules.strategy rules.fallback source.lines) ∧
        (rules.layoutStrategy = .single →
          (∀ r ∈ (classify rules source).records, r = (rules.fallback, source.content)) ∧
            (classify rules source).unrecognized = []) := by
  refine ⟨Classification.divides_classify, fun engine config source c hc => ?_⟩
  obtain ⟨rules, hi, hs⟩ := exists_rules_of_compile hc
  obtain ⟨hlabels, htypes, hcounts, hunrecognized⟩ := record_types_of_ofSource hs
  refine ⟨rules, hi, divides_classify rules source, hlabels, htypes, hcounts, hunrecognized,
    fun hl => classify_of_ne_single hl source, fun hl => ?_⟩
  rw [classify_of_single hl]
  exact ⟨fun r hr => eq_of_mem_records_single hr, rfl⟩

/-- Headers, and details that have the fallback type. -/
def detailsAmongOthers : Rules.Config where
  ruleType := "position-based"
  recordTypeField := some {
    start := some 1
    length := some 1
    values := [("D", "DATA"), ("H", "HEADER")] }

/-- A detail joins a line that no rule recognizes. -/
theorem lines_divided_by_record_type_mixed :
    let source := Source.ofLines (["H 01 A.", "? 01 B.", "      * C", "H    05 D PIC X.",
      "D    05 E PIC X(2)."].map String.toList)
    ∃ c, compileWith .plain detailsAmongOthers source = .ok c ∧
      c.layouts.map (·.1) = ["HEADER", "DATA"] ∧ c.recordCounts = [("HEADER", 2), ("DATA", 2)] ∧
      c.unrecognizedLines = ["? 01 B."] ∧
      ∃ rules, Rules.interpretWith .plain detailsAmongOthers = .ok rules ∧
        (classify rules source).Divides (typeOf? rules) "DATA" source.content := by
  intro source
  have hanswer : (match compileWith .plain detailsAmongOthers source with
      | .ok c => (c.layouts.map (·.1), c.recordCounts, c.unrecognizedLines)
      | .error _ => ([], [], [])) =
      (["HEADER", "DATA"], [("HEADER", 2), ("DATA", 2)], ["? 01 B."]) := by decide +kernel
  cases hc : compileWith .plain detailsAmongOthers source with
  | error e => simp [hc] at hanswer
  | ok c =>
    simp only [hc, Prod.mk.injEq] at hanswer
    obtain ⟨rules, hi, hdivides, -⟩ :=
      lines_divided_by_record_type.2 .plain detailsAmongOthers source c hc
    obtain ⟨-, -, -, -, -, -, hfallback, -⟩ := Rules.interpret_eq_ok_iff.1 hi
    have hdata : rules.fallback = "DATA" := hfallback
    rw [hdata] at hdivides
    exact ⟨c, rfl, hanswer.1, hanswer.2.1, hanswer.2.2, rules, hi, hdivides⟩

end DataDivision.Compilation
