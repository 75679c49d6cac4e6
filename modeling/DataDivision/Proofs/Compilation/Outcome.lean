import DataDivision.Compilation
import DataDivision.Proofs.Classification.Grouping
import DataDivision.Proofs.Layout.Sweep
import DataDivision.Proofs.Record.Extent
import DataDivision.Proofs.Record.Findings
import DataDivision.Proofs.Rules.Defaults

/-!
When compiling fails.

The findings of a compilation are listed by `findings`, and one of them is an error exactly when the
source is rejected for one of the four reasons of `Rejects`.
-/

namespace DataDivision.Compilation

/-! ## Record types -/

/-- The record type that a line goes to. -/
def labelOf (rules : Rules) (line : Line) : String :=
  match rules.layoutStrategy with
  | .single => rules.fallback
  | .multi | .custom => (rules.strategy.classify line.text).getD rules.fallback

/-- The record types of a source in the order in which they first appear. -/
def recordTypes (rules : Rules) (source : Source) : List String :=
  (source.content.map (labelOf rules)).eraseDups

def linesOf (rules : Rules) (source : Source) (label : String) : List Line :=
  source.content.filter fun line => labelOf rules line == label

/-- The lines that no rule recognizes, if rules are asked at all. -/
def unmatchedLines (rules : Rules) (source : Source) : List Line :=
  match rules.layoutStrategy with
  | .single => []
  | .multi | .custom =>
    source.content.filter fun line => (rules.strategy.classify line.text).isNone

theorem records_classify (rules : Rules) (source : Source) :
    (classify rules source).records =
      (recordTypes rules source).map fun label => (label, linesOf rules source label) := by
  have hgroups : (recordTypes rules source).map (fun label => (label, linesOf rules source label)) =
      Classification.groupBy (labelOf rules) source.content :=
    (Classification.groupBy_eq (labelOf rules) source.content).symm
  rw [hgroups]
  unfold classify labelOf
  cases rules.layoutStrategy with
  | single => exact Classification.records_single rules.fallback source.lines "single_layout"
  | multi => rfl
  | custom => rfl

theorem unrecognized_classify (rules : Rules) (source : Source) :
    (classify rules source).unrecognized = unmatchedLines rules source := by
  unfold classify unmatchedLines
  cases rules.layoutStrategy <;> rfl

def recordOf (rules : Rules) (source : Source) (label : String) : Record :=
  Record.ofLines rules (linesOf rules source label)

def layoutOf (rules : Rules) (source : Source) (label : String) : Layout :=
  (compileRecord rules source label (linesOf rules source label)).1

/-! ## Findings -/

/-- Overlaps are errors. -/
def OverlapsFail (rules : Rules) : Prop :=
  rules.config.validation.strictMode = true ∨ rules.config.layoutGeneration.allowOverlaps = false

/-- The findings about the overlaps of some fields, if these are looked for. -/
def overlapFindings (rules : Rules) (source : Source) (fields : List Field) : List Diagnostic :=
  let severity :=
    if rules.config.validation.strictMode || !rules.config.layoutGeneration.allowOverlaps then
      Severity.error
    else .warning
  let overlaps :=
    if rules.config.validation.validateFieldOverlaps then Layout.Overlap.find fields else []
  overlaps.filterMap fun o =>
    match fields[o.first]?, fields[o.second]? with
    | some first, some second => some (overlapDiagnostic source severity first second)
    | _, _ => none

/-- The findings about a record type: those about its entries, then those about its overlaps. -/
def recordFindings (rules : Rules) (source : Source) (label : String) : List Diagnostic :=
  let record := recordOf rules source label
  record.diagnostics.map (promote rules.config.validation.strictMode) ++
    overlapFindings rules source record.fields

/-- The finding that record types differ in length, if they may not. -/
def lengthFindings (rules : Rules) (source : Source) : List Diagnostic :=
  if rules.config.validation.uniformRecordLength then
    (lengthMismatch? ((recordTypes rules source).map (layoutOf rules source))).toList
  else []

/-- All findings in their order: the unrecognized lines, the record types one after another, and
the difference of lengths. -/
def findings (rules : Rules) (source : Source) : List Diagnostic :=
  (unmatchedLines rules source).map (unrecognized rules.fallback) ++
    (recordTypes rules source).flatMap (recordFindings rules source) ++ lengthFindings rules source

/-- Why a source has no layouts. -/
inductive Rejects (rules : Rules) (source : Source) : Prop
  /-- A record is too large. -/
  | size (label : String) (mem : label ∈ recordTypes rules source)
      (reported : (recordOf rules source label).reports .recordTooLarge = true)
  /-- A redefinition has no target, under strict rules. -/
  | target (strict : rules.config.validation.strictMode = true) (label : String)
      (mem : label ∈ recordTypes rules source)
      (reported : (recordOf rules source label).reports .undefinedTarget = true)
  /-- Two different fields of a layout share a byte and no storage, where overlaps are looked for
  and are errors. -/
  | overlap (checked : rules.config.validation.validateFieldOverlaps = true)
      (fail : OverlapsFail rules) (label : String) (mem : label ∈ recordTypes rules source)
      (i j : Nat) (f g : Field) (ne : i ≠ j)
      (first : (layoutOf rules source label).fields[i]? = some f)
      (second : (layoutOf rules source label).fields[j]? = some g) (clash : f.Clashes g)
  /-- Two layouts differ in length, where all must have one length. -/
  | lengths (uniform : rules.config.validation.uniformRecordLength = true) (label label' : String)
      (mem : label ∈ recordTypes rules source) (mem' : label' ∈ recordTypes rules source)
      (ne : (layoutOf rules source label).statistics.totalLength ≠
        (layoutOf rules source label').statistics.totalLength)

/-! ## Errors among the findings -/

theorem isError_unrecognized (fallback : String) (line : Line) :
    (unrecognized fallback line).isError = false := rfl

theorem isError_promote (strict : Bool) (d : Diagnostic) :
    (promote strict d).isError = true ↔
      d.isError = true ∨ strict = true ∧ d.code = some .undefinedTarget := by
  unfold promote
  split
  · rename_i h
    simp only [Bool.and_eq_true, beq_iff_eq] at h
    simp [Diagnostic.isError, h]
  · rename_i h
    simp only [Bool.and_eq_true, beq_iff_eq] at h
    simp [h]

theorem any_promoted (rules : Rules) (source : Source) (label : String) :
    ((recordOf rules source label).diagnostics.map
        (promote rules.config.validation.strictMode)).any (·.isError) = true ↔
      (recordOf rules source label).reports .recordTooLarge = true ∨
        rules.config.validation.strictMode = true ∧
          (recordOf rules source label).reports .undefinedTarget = true := by
  simp only [List.any_map, List.any_eq_true, Function.comp_apply, isError_promote, Record.reports,
    beq_iff_eq]
  constructor
  · rintro ⟨d, hd, he | ⟨hs, hc⟩⟩
    · exact .inl ⟨d, hd, (Record.isError_iff_of_mem hd).1 he⟩
    · exact .inr ⟨hs, d, hd, hc⟩
  · rintro (⟨d, hd, hc⟩ | ⟨hs, d, hd, hc⟩)
    · exact ⟨d, hd, .inl ((Record.isError_iff_of_mem hd).2 hc)⟩
    · exact ⟨d, hd, .inr ⟨hs, hc⟩⟩

/-- Every overlap that is looked for makes one finding. -/
theorem map_overlapFindings (rules : Rules) (source : Source) (fields : List Field) :
    (overlapFindings rules source fields).map (fun d => (d.code, d.isError)) =
      if rules.config.validation.validateFieldOverlaps then
        (Layout.Overlap.find fields).map fun _ =>
          (some .overlap, rules.config.validation.strictMode ||
            !rules.config.layoutGeneration.allowOverlaps)
      else [] := by
  have hall : ∀ severity (overlaps : List Layout.Overlap),
      (∀ o ∈ overlaps, o ∈ Layout.Overlap.find fields) →
      (overlaps.filterMap fun o =>
        match fields[o.first]?, fields[o.second]? with
        | some first, some second => some (overlapDiagnostic source severity first second)
        | _, _ => none).map (fun d => (d.code, d.isError)) =
      overlaps.map fun _ => (some .overlap, severity == .error) := by
    intro severity overlaps h
    induction overlaps with
    | nil => rfl
    | cons o rest ih =>
      obtain ⟨f, g, hf, hg, -⟩ := Layout.Overlap.exists_of_mem_find (h o List.mem_cons_self)
      simp only [List.filterMap_cons, hf, hg, List.map_cons,
        ih fun o' ho => h o' (List.mem_cons_of_mem _ ho)]
      rfl
  unfold overlapFindings
  cases rules.config.validation.validateFieldOverlaps with
  | false => rfl
  | true =>
    refine (hall _ _ fun o ho => ho).trans ?_
    simp only [↓reduceIte]
    cases rules.config.validation.strictMode || !rules.config.layoutGeneration.allowOverlaps <;> rfl

theorem any_overlapFindings (rules : Rules) (source : Source) (fields : List Field) :
    (overlapFindings rules source fields).any (·.isError) = true ↔
      rules.config.validation.validateFieldOverlaps = true ∧ OverlapsFail rules ∧
        Layout.Overlap.find fields ≠ [] := by
  have hany : (overlapFindings rules source fields).any (·.isError) =
      ((overlapFindings rules source fields).map fun d => (d.code, d.isError)).any (·.2) := by
    rw [List.any_map]
    rfl
  rw [hany, map_overlapFindings]
  unfold OverlapsFail
  cases rules.config.validation.validateFieldOverlaps <;>
    cases rules.config.validation.strictMode <;>
    cases rules.config.layoutGeneration.allowOverlaps <;>
    cases Layout.Overlap.find fields <;> simp

/-- The lengths are compared with the first one. -/
theorem lengthMismatch?_isSome_iff (layouts : List Layout) :
    (lengthMismatch? layouts).isSome = true ↔
      ∃ l ∈ layouts, ∃ l' ∈ layouts, l.statistics.totalLength ≠ l'.statistics.totalLength := by
  cases layouts with
  | nil => simp [lengthMismatch?]
  | cons first rest =>
    simp only [lengthMismatch?]
    split
    · rename_i h
      simp only [List.all_eq_true, beq_iff_eq] at h
      have hsame : ∀ l ∈ first :: rest,
          l.statistics.totalLength = first.statistics.totalLength := by
        rintro l (_ | ⟨_, hl⟩)
        · rfl
        · exact h l hl
      simp only [Option.isSome_none, Bool.false_eq_true, false_iff]
      rintro ⟨l, hl, l', hl', hne⟩
      exact hne ((hsame l hl).trans (hsame l' hl').symm)
    · rename_i h
      simp only [Bool.not_eq_true, List.all_eq_false, beq_iff_eq] at h
      obtain ⟨l, hl, hne⟩ := h
      simp only [Option.isSome_some, true_iff]
      exact ⟨l, List.mem_cons_of_mem _ hl, first, List.mem_cons_self, hne⟩

theorem isError_lengthMismatch {layouts : List Layout} {d : Diagnostic}
    (h : lengthMismatch? layouts = some d) :
    d.code = some .lengthMismatch ∧ d.isError = true := by
  cases layouts with
  | nil => cases h
  | cons first rest =>
    simp only [lengthMismatch?] at h
    split at h
    · cases h
    · cases h
      exact ⟨rfl, rfl⟩

theorem any_lengthFindings (rules : Rules) (source : Source) :
    (lengthFindings rules source).any (·.isError) = true ↔
      rules.config.validation.uniformRecordLength = true ∧
        ∃ label ∈ recordTypes rules source, ∃ label' ∈ recordTypes rules source,
          (layoutOf rules source label).statistics.totalLength ≠
            (layoutOf rules source label').statistics.totalLength := by
  have hiff : (lengthMismatch? ((recordTypes rules source).map
      (layoutOf rules source))).isSome = true ↔
      ∃ label ∈ recordTypes rules source, ∃ label' ∈ recordTypes rules source,
        (layoutOf rules source label).statistics.totalLength ≠
          (layoutOf rules source label').statistics.totalLength := by
    rw [lengthMismatch?_isSome_iff]
    constructor
    · rintro ⟨l, hl, l', hl', hne⟩
      obtain ⟨label, hm, rfl⟩ := List.mem_map.1 hl
      obtain ⟨label', hm', rfl⟩ := List.mem_map.1 hl'
      exact ⟨label, hm, label', hm', hne⟩
    · rintro ⟨label, hm, label', hm', hne⟩
      exact ⟨_, List.mem_map_of_mem hm, _, List.mem_map_of_mem hm', hne⟩
  unfold lengthFindings
  cases rules.config.validation.uniformRecordLength with
  | false => simp
  | true =>
    simp only [↓reduceIte, true_and, ← hiff]
    cases hm : lengthMismatch? ((recordTypes rules source).map (layoutOf rules source)) with
    | none => simp
    | some d => simp [(isError_lengthMismatch hm).2]

/-! ## The outcome -/

theorem fields_layoutOf (rules : Rules) (source : Source) (label : String) :
    (layoutOf rules source label).fields = (recordOf rules source label).fields := rfl

/-- The findings hold an error exactly when the source is rejected. -/
theorem any_findings (rules : Rules) (source : Source) :
    (findings rules source).any (·.isError) = true ↔ Rejects rules source := by
  have hunmatched : ((unmatchedLines rules source).map (unrecognized rules.fallback)).any
      (·.isError) = false := by
    simp [isError_unrecognized]
  have hclash : ∀ label, Layout.Overlap.find (recordOf rules source label).fields ≠ [] ↔
      ∃ (i j : Nat) (f g : Field), i ≠ j ∧
        (layoutOf rules source label).fields[i]? = some f ∧
        (layoutOf rules source label).fields[j]? = some g ∧ f.Clashes g := by
    intro label
    refine Layout.Overlap.find_ne_nil_iff fun f hf hb => ?_
    have := Record.end_eq_of_mem_ofEntries hf hb.1 hb.2
    have := hb.2
    omega
  have hrecord : ∀ label, (recordFindings rules source label).any (·.isError) = true ↔
      ((recordOf rules source label).reports .recordTooLarge = true ∨
        rules.config.validation.strictMode = true ∧
          (recordOf rules source label).reports .undefinedTarget = true) ∨
      rules.config.validation.validateFieldOverlaps = true ∧ OverlapsFail rules ∧
        Layout.Overlap.find (recordOf rules source label).fields ≠ [] := by
    intro label
    simp only [recordFindings, List.any_append, Bool.or_eq_true, any_promoted,
      any_overlapFindings]
  have hsplit : (findings rules source).any (·.isError) = true ↔
      (∃ label ∈ recordTypes rules source,
        (recordFindings rules source label).any (·.isError) = true) ∨
      (lengthFindings rules source).any (·.isError) = true := by
    simp only [findings, List.any_append, hunmatched, Bool.false_or, Bool.or_eq_true,
      List.any_flatMap, List.any_eq_true]
  rw [hsplit, any_lengthFindings]
  constructor
  · rintro (⟨label, hm, he⟩ | ⟨hu, label, hm, label', hm', hne⟩)
    · obtain (hs | ⟨hs, ht⟩) | ⟨hv, hf, hc⟩ := (hrecord label).1 he
      · exact .size label hm hs
      · exact .target hs label hm ht
      · obtain ⟨i, j, f, g, hne, hi, hj, hc⟩ := (hclash label).1 hc
        exact .overlap hv hf label hm i j f g hne hi hj hc
    · exact .lengths hu label label' hm hm' hne
  · intro h
    cases h with
    | size label hm hs => exact .inl ⟨label, hm, (hrecord label).2 (.inl (.inl hs))⟩
    | target hs label hm ht => exact .inl ⟨label, hm, (hrecord label).2 (.inl (.inr ⟨hs, ht⟩))⟩
    | overlap hv hf label hm i j f g hne hi hj hc =>
      exact .inl ⟨label, hm, (hrecord label).2
        (.inr ⟨hv, hf, (hclash label).2 ⟨i, j, f, g, hne, hi, hj, hc⟩⟩)⟩
    | lengths hu label label' hm hm' hne => exact .inr ⟨hu, label, hm, label', hm', hne⟩

/-- The log of a compilation holds exactly the listed findings. -/
theorem ofSource_eq (rules : Rules) (source : Source) :
    ofSource rules source =
      match Log.finish ⟨findings rules source⟩ with
      | .error ds => .error (.source ds source.text)
      | .ok warnings => .ok {
          layouts := (recordTypes rules source).map fun label =>
            (label, layoutOf rules source label)
          recordCounts := (classify rules source).counts
          unrecognizedLines := (unmatchedLines rules source).map fun x => String.ofList x.text
          warnings := warnings
          processingMethod := (classify rules source).method } := by
  unfold ofSource findings lengthFindings
  simp only [records_classify, unrecognized_classify, List.map_map, List.flatMap_map]
  rfl

/-- The findings that come with an outcome, be it a failure or layouts. -/
def reported : Except Failure Compilation → List Diagnostic
  | .ok c => c.warnings
  | .error (.source ds _) => ds
  | .error _ => []

/-- A source has layouts unless it is rejected, and its findings come out whole either way. -/
theorem ofSource_cases (rules : Rules) (source : Source) :
    reported (ofSource rules source) = findings rules source ∧
      ((Rejects rules source ∧
          ofSource rules source = .error (.source (findings rules source) source.text)) ∨
        ¬ Rejects rules source ∧ ∃ c, ofSource rules source = .ok c) := by
  rw [ofSource_eq, ← any_findings]
  unfold Log.finish Log.hasErrors
  cases h : (findings rules source).any (·.isError) with
  | true => exact ⟨rfl, .inl ⟨rfl, rfl⟩⟩
  | false => exact ⟨rfl, .inr ⟨by simp, _, rfl⟩⟩

theorem code_overlapFindings (rules : Rules) (source : Source) (fields : List Field) :
    (overlapFindings rules source fields).map (·.code) =
      if rules.config.validation.validateFieldOverlaps then
        (Layout.Overlap.find fields).map fun _ => some .overlap
      else [] := by
  have h := congrArg (List.map Prod.fst) (map_overlapFindings rules source fields)
  rw [List.map_map] at h
  refine h.trans ?_
  split
  · rw [List.map_map]
    rfl
  · rfl

theorem lengthFindings_cases (rules : Rules) (source : Source) :
    lengthFindings rules source = [] ∨
      ∃ d, lengthFindings rules source = [d] ∧ d.code = some .lengthMismatch := by
  unfold lengthFindings
  split
  · cases h : lengthMismatch? ((recordTypes rules source).map (layoutOf rules source)) with
    | none => exact .inl rfl
    | some d => exact .inr ⟨d, rfl, (isError_lengthMismatch h).1⟩
  · exact .inl rfl

/-- Compiling fails exactly when the source is rejected, and reports the same findings in the same
order whether it fails or not. -/
theorem compile_outcome {engine : Pattern.Engine} {config : Rules.Config} {rules : Rules}
    (h : Rules.interpretWith engine config = .ok rules) (lines : List (List Char)) :
    let source := Source.ofLines lines
    ((∃ ds text, compileWith engine config source = .error (.source ds text)) ↔
        Rejects rules source) ∧
      ((∃ c, compileWith engine config source = .ok c) ↔ ¬ Rejects rules source) ∧
      reported (compileWith engine config source) =
        (unmatchedLines rules source).map (unrecognized rules.fallback) ++
          (recordTypes rules source).flatMap (fun label =>
            (recordOf rules source label).diagnostics.map
                (promote rules.config.validation.strictMode) ++
              overlapFindings rules source (recordOf rules source label).fields) ++
          lengthFindings rules source ∧
      (∀ line, (unrecognized rules.fallback line).code = some .unrecognizedRecord) ∧
      (∀ fields, (overlapFindings rules source fields).map (·.code) =
        if rules.config.validation.validateFieldOverlaps then
          (Layout.Overlap.find fields).map fun _ => some .overlap
        else []) ∧
      (lengthFindings rules source = [] ∨
        ∃ d, lengthFindings rules source = [d] ∧ d.code = some .lengthMismatch) := by
  intro source
  have hc : compileWith engine config source = ofSource rules source := by
    simp only [compileWith, h]
  obtain ⟨hr, hcases⟩ := ofSource_cases rules source
  rw [hc]
  refine ⟨?_, ?_, hr, fun _ => rfl, code_overlapFindings rules source,
    lengthFindings_cases rules source⟩
  · obtain ⟨hx, he⟩ | ⟨hx, c, he⟩ := hcases
    · exact ⟨fun _ => hx, fun _ => ⟨_, _, he⟩⟩
    · refine ⟨fun ⟨ds, text, hf⟩ => ?_, fun hj => absurd hj hx⟩
      rw [he] at hf
      cases hf
  · obtain ⟨hx, he⟩ | ⟨hx, c, he⟩ := hcases
    · refine ⟨fun ⟨c, hf⟩ => ?_, fun hn => absurd hx hn⟩
      rw [he] at hf
      cases hf
    · exact ⟨fun _ => hx, fun _ => ⟨c, he⟩⟩

/-- Headers, told by the names of their entries. -/
def namedHeaders : Rules.Config where
  ruleType := "pattern-based"
  recordTypeField := some { pattern := some "HD", patternMappings := [("HD", "HEADER")] }

/-- A redefinition without a target is found and does no harm, and a line without the pattern is
found as well. -/
theorem compile_outcome_missing_target :
    let lines := ["01 HD-A.", "   05 HD-B PIC X(2).", "   05 HD-C REDEFINES HD-D PIC X(2).",
      "01 E PIC X."].map String.toList
    let source := Source.ofLines lines
    ∃ rules, Rules.interpretWith .plain namedHeaders = .ok rules ∧
      ((∃ ds text, compileWith .plain namedHeaders source = .error (.source ds text)) ↔
        Rejects rules source) ∧
      (recordOf rules source "HEADER").reports .undefinedTarget = true ∧
      (unmatchedLines rules source).map (·.number) = [4] := by
  refine ⟨_, Rules.interpret_eq_standard rfl rfl rfl,
    (compile_outcome (Rules.interpret_eq_standard rfl rfl rfl) _).1, ?_, ?_⟩
  · decide +kernel
  · decide +kernel

end DataDivision.Compilation
