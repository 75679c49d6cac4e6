import DataDivision.Proofs.Checked.Layout
import DataDivision.Proofs.Checked.Rules
import DataDivision.Proofs.Compilation.Outcome
import DataDivision.Proofs.Entry.Positions
import DataDivision.Proofs.Rules.Defaults

/-!
Checked compilation.

Every line of a source ends inside its text (`Source.fits_of_mem_lines`), and the rules leave room
for all sums of their numbers.  So a compilation meets no place where it would have to stop: the
checked one returns what the other one does (`compile_eq_some`).
-/

namespace DataDivision

/-! ## Lines of a source -/

namespace Source

theorem byteLength_dropBreaks_le (texts : List (List Char)) :
    ((texts.map Text.dropBreaks).map Text.byteLength).sum ≤ (texts.map Text.byteLength).sum := by
  induction texts with
  | nil => exact Nat.le_refl 0
  | cons text rest ih =>
    have hle := Text.byteLength_mono (Text.dropBreaks_sublist text)
    simp only [List.map_cons, List.sum_cons] at ih ⊢
    omega

/-- A line ends at the bytes of the lines up to it and the line breaks between them. -/
theorem lineStart_add_le {texts : List (List Char)} {i : Nat} {text : List Char}
    (hi : texts[i]? = some text) : Text.lineStart texts i + Text.byteLength text ≤
      (texts.map Text.byteLength).sum + texts.length := by
  induction texts generalizing i with
  | nil => cases hi
  | cons first rest ih =>
    cases i with
    | zero =>
      obtain rfl := Option.some.inj hi
      simp only [Text.lineStart, List.take_zero, List.map_nil, List.sum_nil, List.map_cons,
        List.sum_cons, List.length_cons]
      omega
    | succ i =>
      have hrest := ih hi
      rw [Text.lineStart_cons_succ]
      simp only [List.map_cons, List.sum_cons, List.length_cons]
      omega

/-- Lines end at bytes with 64-bit numbers if there are not too many of both. -/
theorem fits_of_mem_lines {texts : List (List Char)}
    (h : (texts.map Text.byteLength).sum + texts.length ≤ Text.maxWord64) :
    ∀ line ∈ (ofLines texts).lines, line.Fits := by
  intro line hm
  obtain ⟨i, hi⟩ := List.mem_iff_getElem?.1 hm
  rw [getElem?_lines, Option.map_eq_some_iff] at hi
  obtain ⟨text, hi, rfl⟩ := hi
  have hend := lineStart_add_le hi
  have hbytes := byteLength_dropBreaks_le texts
  rw [List.length_map] at hend
  simp only [Line.Fits, Span.of]
  omega

end Source

namespace Checked

/-! ## Record types -/

def recordOfLines (rules : Rules) (lines : List Line) : Option Record := do
  let code ← columns rules.strategy
  let entries ← ofLines code lines
  ofEntries rules entries

def overlapDiagnostic (source : Source) (severity : Severity) (fields : List Field)
    (o : Layout.Overlap) : Option Diagnostic := do
  let first ← fields[o.first]?
  let second ← fields[o.second]?
  return Compilation.overlapDiagnostic source severity first second

def compileRecord (rules : Rules) (source : Source) (label : String) (lines : List Line) :
    Option (Layout × List Diagnostic) := do
  let config := rules.config
  let strict := config.validation.strictMode
  let record ← recordOfLines rules lines
  let assembler : Layout.Assembler := {
    template := config.layoutGeneration.namingConvention
    checkOverlaps := config.validation.validateFieldOverlaps
    recordLevels := config.fieldProcessing.recordLevels }
  let (layout, overlaps) ← assemble assembler label record.fields
  let severity :=
    if strict || !config.layoutGeneration.allowOverlaps then Severity.error else .warning
  let mistakes ← overlaps.mapM (overlapDiagnostic source severity layout.fields)
  return (layout, record.diagnostics.map (Compilation.promote strict) ++ mistakes)

/-- The numbers in the rules leave room for the sums that are made of them. -/
structure Room (rules : Rules) : Prop where
  columns : rules.strategy.Fits
  start : rules.startPosition + rules.codeWidth ≤ Text.maxWord64

section

variable {rules : Rules} {source : Source} {lines : List Line}

theorem recordOfLines_eq (h : Room rules) (hl : ∀ line ∈ lines, line.Fits) :
    recordOfLines rules lines = some (Record.ofLines rules lines) := by
  simp only [recordOfLines, columns_eq h.columns, ofLines_eq _ hl, Option.bind_eq_bind,
    Option.bind_some]
  exact ofEntries_eq h.start _

theorem mem_find_of_mem_assemble {a : Layout.Assembler} {label : String} {fields : List Field}
    {o : Layout.Overlap} (h : o ∈ (a.assemble label fields).2) :
    o ∈ Layout.Overlap.find fields := by
  simp only [Layout.Assembler.assemble] at h
  split at h
  · exact h
  · cases h

/-- Overlaps are those of fields, so there is a finding about each of them. -/
theorem mapM_overlapDiagnostic (source : Source) (severity : Severity) {fields : List Field}
    {overlaps : List Layout.Overlap} (h : ∀ o ∈ overlaps, o ∈ Layout.Overlap.find fields) :
    overlaps.mapM (overlapDiagnostic source severity fields) =
      some (overlaps.filterMap fun o => match fields[o.first]?, fields[o.second]? with
        | some first, some second =>
          some (Compilation.overlapDiagnostic source severity first second)
        | _, _ => none) := by
  have hall : ∀ o ∈ overlaps, (overlapDiagnostic source severity fields o).isSome := by
    intro o ho
    obtain ⟨f, g, hf, hg, -, -⟩ := Layout.Overlap.exists_of_mem_find (h o ho)
    rw [overlapDiagnostic, hf, hg]
    rfl
  rw [mapM_eq_filterMap hall]
  refine congrArg (fun f => some (overlaps.filterMap f)) (funext fun o => ?_)
  rw [overlapDiagnostic]
  cases fields[o.first]? <;> cases fields[o.second]? <;> rfl

theorem compileRecord_eq (h : Room rules) (source : Source) (label : String)
    (hl : ∀ line ∈ lines, line.Fits) : compileRecord rules source label lines =
      some (Compilation.compileRecord rules source label lines) := by
  have ha : Record.IsArena (Record.ofLines rules lines).fields := Record.isArena_ofEntries rules _
  have hb : ∀ f ∈ (Record.ofLines rules lines).fields, 0 < f.storageLength →
      f.startPosition + f.storageLength ≤ Text.maxWord64 := by
    intro f hf hpos
    have := Record.stored_le_of_mem_ofEntries hf hpos
    simp only [Storage.maxRecordLength, Text.maxWord64] at this ⊢
    omega
  have hfields : ∀ a : Layout.Assembler,
      (a.assemble label (Record.ofLines rules lines).fields).1.fields =
        (Record.ofLines rules lines).fields := fun _ => rfl
  unfold compileRecord
  simp only [recordOfLines_eq h hl, assemble_eq _ label ha hb, Option.bind_eq_bind, Option.bind_some,
    hfields]
  rw [mapM_overlapDiagnostic source _ fun _ => mem_find_of_mem_assemble]
  rfl

end

/-! ## Copybooks -/

def ofSource (rules : Rules) (source : Source) : Option (Except Failure Compilation) := do
  let classified := Compilation.classify rules source
  let compiled ← classified.records.mapM fun x =>
    (compileRecord rules source x.1 x.2).map fun record => (x.1, record)
  let layouts := compiled.map fun (label, layout, _) => (label, layout)
  let mismatch :=
    if rules.config.validation.uniformRecordLength then
      (Compilation.lengthMismatch? (layouts.map (·.2))).toList
    else []
  let log : Log := ⟨classified.unrecognized.map (Compilation.unrecognized rules.fallback) ++
    compiled.flatMap (·.2.2) ++ mismatch⟩
  return match log.finish with
    | .error findings => .error (.source findings source.text)
    | .ok warnings =>
      .ok {
        layouts := layouts
        recordCounts := classified.counts
        unrecognizedLines := classified.unrecognized.map fun line => String.ofList line.text
        warnings := warnings
        processingMethod := classified.method }

def compileWith (engine : Pattern.Engine) (config : Rules.Config) (texts : List (List Char)) :
    Option (Except Failure Compilation) :=
  match Rules.interpretWith engine config with
  | .error cause => some (.error (.rules cause))
  | .ok rules => ofSource rules (Source.ofLines texts)

theorem ofSource_eq {rules : Rules} {source : Source} (h : Room rules)
    (hl : ∀ line ∈ source.lines, line.Fits) :
    ofSource rules source = some (Compilation.ofSource rules source) := by
  have hcompiled : ((Compilation.classify rules source).records.mapM fun x =>
      (compileRecord rules source x.1 x.2).map fun record => (x.1, record)) =
        some ((Compilation.classify rules source).records.map fun x =>
          (x.1, Compilation.compileRecord rules source x.1 x.2)) := by
    refine mapM_eq_some fun x hx => ?_
    rw [Compilation.records_classify] at hx
    obtain ⟨label, -, rfl⟩ := List.mem_map.1 hx
    have hlines : ∀ line ∈ Compilation.linesOf rules source label, line.Fits := fun line hm =>
      hl line (List.mem_filter.1 (List.mem_filter.1 hm).1).1
    rw [compileRecord_eq h source label hlines]
    rfl
  rw [ofSource, hcompiled]
  rfl

/-- A compilation never stops: no index is out of range, no text is cut inside a character, all sums
and differences are 64-bit numbers, and all loops end.  A list that fits into the memory of a 64-bit
machine has fewer members than `hn` admits. -/
theorem compile_eq_some {engine : Pattern.Engine} {config : Rules.Config} (hc : config.Fits)
    {texts : List (List Char)} (hb : (texts.map Text.byteLength).sum < 2 ^ 62)
    (hn : texts.length < 2 ^ 63) : compileWith engine config texts =
      some (Compilation.compileWith engine config (Source.ofLines texts)) := by
  unfold compileWith Compilation.compileWith
  cases hi : Rules.interpretWith engine config with
  | error cause => rfl
  | ok rules =>
    have hroom : Room rules := ⟨Rules.fits_of_strategyOf (Rules.interpret_eq_ok_iff.1 hi).1 hc,
      Rules.startPosition_add_codeWidth_le hi hc⟩
    refine ofSource_eq hroom (Source.fits_of_mem_lines ?_)
    simp only [Text.maxWord64]
    omega

/-- A record type code whose numbers are the largest that rules can hold. -/
def largestNumbers : Rules.Config where
  ruleType := "position-based"
  recordTypeField := some {
    start := some 9223372036854775807
    length := some 9223372036854775807
    values := [("H", "HEADER")] }
  layoutGeneration := { startPosition := 9223372036854775807 }

theorem fits_largestNumbers : largestNumbers.Fits := by
  have hlargest : IsInt64 9223372036854775807 := ⟨by decide, by decide⟩
  refine ⟨hlargest, fun field hf => ?_⟩
  obtain rfl := Option.some.inj hf
  refine ⟨fun n hn => ?_, fun n hn => ?_, fun test ht => absurd ht List.not_mem_nil⟩
  · exact Option.some.inj hn ▸ hlargest
  · exact Option.some.inj hn ▸ hlargest

/-- With the largest numbers, records begin right before the largest 64-bit number. -/
theorem compile_eq_some_largest :
    let texts := ["000100 01 A. *> record", "000200   05 B PIC X(2)."].map String.toList
    (∃ rules, Rules.interpretWith .plain largestNumbers = .ok rules ∧
      rules.startPosition + rules.codeWidth = 18446744073709551614) ∧
    largestNumbers.Fits ∧ (texts.map Text.byteLength).sum < 2 ^ 62 ∧ texts.length < 2 ^ 63 ∧
    compileWith .plain largestNumbers texts =
      some (Compilation.compileWith .plain largestNumbers (Source.ofLines texts)) := by
  intro texts
  let strategy : Classification.Strategy :=
    .position ⟨9223372036854775807, 9223372036854775807, [("H", "HEADER")], true, false⟩
  let rules : Rules :=
    { Rules.standard largestNumbers strategy with startPosition := 9223372036854775807 }
  have hi : Rules.interpretWith .plain largestNumbers = .ok rules :=
    Rules.interpret_eq_ok_iff.2
      ⟨rfl, rfl, Rules.ofMapping_defaultUsages, rfl, by decide, rfl, rfl, rfl, rfl⟩
  have hb : (texts.map Text.byteLength).sum < 2 ^ 62 := by decide
  have hn : texts.length < 2 ^ 63 := by decide
  exact ⟨⟨rules, hi, by decide⟩, fits_largestNumbers, hb, hn,
    compile_eq_some fits_largestNumbers hb hn⟩

end Checked

end DataDivision
