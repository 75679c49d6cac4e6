import DataDivision.Proofs.Compilation.Exactness
import DataDivision.Proofs.Compilation.Quiet
import DataDivision.Proofs.Entry.Positions
import DataDivision.Proofs.Record.Attribution
import DataDivision.Report.Basic

/-!
Lines in reports.

A warning is about a line of the source (`Compilation.IsAbout`), and its mark starts on that line.
A report counts the line feeds before the mark in the text as it was read, in which carriage returns
still stand, so it never names a later line, and it names that line unless a return stands before a
feed (`Report.reported_line`).
-/

namespace DataDivision

namespace Compilation

/-- What a warning is about, by the number of a line: a line that no rule recognizes, an entry, by
the line on which it starts, or the second of two overlapping fields, by the line of its entry. -/
inductive IsAbout (rules : Rules) (source : Source) (d : Diagnostic) : Nat → Prop
  | unrecognized (line : Line) (mem : line ∈ unmatchedLines rules source)
      (eq : d = unrecognized rules.fallback line) : IsAbout rules source d line.number
  | entry (label : String) (mem : label ∈ recordTypes rules source) (entry : Entry)
      (findings : List Diagnostic)
      (made : (entry, findings) ∈ (entriesOf rules source label).zip
        ((Record.Walk.start rules).findingsBy rules (entriesOf rules source label)))
      (finding : Diagnostic) (mem' : finding ∈ findings)
      (eq : d = promote rules.config.validation.strictMode finding) :
      IsAbout rules source d entry.line
  | overlap (label : String) (mem : label ∈ recordTypes rules source) (o : Layout.Overlap)
      (found : o ∈ Layout.Overlap.find (recordOf rules source label).fields) (first second : Field)
      (first_eq : (recordOf rules source label).fields[o.first]? = some first)
      (second_eq : (recordOf rules source label).fields[o.second]? = some second)
      (severity : Severity) (eq : d = overlapDiagnostic source severity first second) :
      IsAbout rules source d second.line

theorem content_subset_lines {source : Source} {line : Line} (h : line ∈ source.content) :
    line ∈ source.lines := (List.mem_filter.1 h).1

/-- The label of a field marks the line of which the field has the number. -/
theorem fieldLabel?_eq_some {source : Source} {f : Field} {message : String} {primary : Bool}
    {l : Label} (h : fieldLabel? source f message primary = some l) : l.primary = primary ∧
      ∃ line, source.lines[f.line - 1]? = some line ∧ f.line ≠ 0 ∧ line.span = l.span := by
  unfold fieldLabel? at h
  split at h
  · cases h
  · rename_i hn
    obtain ⟨line, hl, rfl⟩ := Option.map_eq_some_iff.1 h
    exact ⟨rfl, line, hl, hn, rfl⟩

/-- The mark of an overlap is the line of the second field. -/
theorem line_of_overlapDiagnostic {source : Source} {severity : Severity} {first second : Field}
    {span : Span} (h : (overlapDiagnostic source severity first second).primarySpan? = some span) :
    ∃ line, source.lines[second.line - 1]? = some line ∧ second.line ≠ 0 ∧ line.span = span := by
  obtain ⟨l, hl, rfl⟩ := Option.map_eq_some_iff.1 h
  have hp := List.find?_some hl
  rcases List.mem_append.1 (List.mem_of_find?_eq_some hl) with hm | hm
  · exact (fieldLabel?_eq_some (Option.mem_toList.1 hm)).2
  · rw [(fieldLabel?_eq_some (Option.mem_toList.1 hm)).1] at hp
    cases hp

section

variable {rules : Rules} {texts : List (List Char)} {label : String} {d : Diagnostic} {span : Span}

theorem mem_lines_of_mem_unmatchedLines {source : Source} {line : Line}
    (h : line ∈ unmatchedLines rules source) : line ∈ source.lines := by
  unfold unmatchedLines at h
  split at h
  · cases h
  · exact content_subset_lines (List.mem_filter.1 h).1
  · exact content_subset_lines (List.mem_filter.1 h).1

/-- A finding about an entry is on the line on which the entry starts. -/
theorem exists_line_of_mem_diagnostics (hl : label ∈ recordTypes rules (Source.ofLines texts))
    (hd : d ∈ (recordOf rules (Source.ofLines texts) label).diagnostics)
    (hc : d.code ≠ some .recordTooLarge) (hs : d.primarySpan? = some span) :
    ∃ line ∈ (Source.ofLines texts).lines, IsAbout rules (Source.ofLines texts)
      (promote rules.config.validation.strictMode d) line.number ∧ line.Holds span.start := by
  have hspans := (Source.pairwise_spans_place 1 0 (texts.map Text.dropBreaks)).1
  obtain ⟨entry, ds, hz, hd', hes⟩ := Record.Walk.exists_entry_of_mem_run hd hc
  obtain rfl : entry.span = span := Option.some.inj (hes.symm.trans hs)
  have hsub : (linesOf rules (Source.ofLines texts) label).Sublist (Source.ofLines texts).lines :=
    List.filter_sublist.trans List.filter_sublist
  obtain ⟨line, hline, hn, hh⟩ := Entry.startsIn_of_mem_ofLines (hspans.sublist hsub)
    (List.of_mem_zip hz).1
  exact ⟨line, hsub.subset hline, hn ▸ .entry label hl entry ds hz d hd' rfl, hh⟩

/-- A finding about an overlap is on the line of the second field. -/
theorem exists_line_of_mem_overlapFindings (hl : label ∈ recordTypes rules (Source.ofLines texts))
    (hd : d ∈ overlapFindings rules (Source.ofLines texts)
      (recordOf rules (Source.ofLines texts) label).fields)
    (hs : d.primarySpan? = some span) : ∃ line ∈ (Source.ofLines texts).lines,
      IsAbout rules (Source.ofLines texts) d line.number ∧ line.Holds span.start := by
  unfold overlapFindings at hd
  obtain ⟨o, ho, hd⟩ := List.mem_filterMap.1 hd
  have hfind : o ∈ Layout.Overlap.find (recordOf rules (Source.ofLines texts) label).fields := by
    split at ho
    · exact ho
    · cases ho
  split at hd
  · rename_i first second hf hg
    obtain rfl := Option.some.inj hd
    obtain ⟨line, hline, hne, rfl⟩ := line_of_overlapDiagnostic hs
    have hnumber : line.number = second.line := by
      rw [Source.getElem?_lines, Option.map_eq_some_iff] at hline
      obtain ⟨text, -, rfl⟩ := hline
      simp only
      omega
    exact ⟨line, List.mem_of_getElem? hline,
      hnumber ▸ .overlap label hl o hfind first second hf hg _ rfl,
      Nat.le_refl _, line.span.start_le_stop⟩
  · cases hd

/-- A finding is about a line on which its mark starts. -/
theorem exists_line_of_mem_findings (hd : d ∈ findings rules (Source.ofLines texts))
    (he : d.isError = false) (hs : d.primarySpan? = some span) :
    ∃ line ∈ (Source.ofLines texts).lines,
      IsAbout rules (Source.ofLines texts) d line.number ∧ line.Holds span.start := by
  rw [findings, List.mem_append, List.mem_append] at hd
  rcases hd with (hd | hd) | hd
  · obtain ⟨line, hm, rfl⟩ := List.mem_map.1 hd
    obtain rfl : line.span = span := Option.some.inj hs
    exact ⟨line, mem_lines_of_mem_unmatchedLines hm, .unrecognized line hm rfl, Nat.le_refl _,
      line.span.start_le_stop⟩
  · obtain ⟨label, hl, hd⟩ := List.mem_flatMap.1 hd
    rw [recordFindings, List.mem_append] at hd
    rcases hd with hd | hd
    · obtain ⟨d, hm, rfl⟩ := List.mem_map.1 hd
      have hspan : d.primarySpan? = some span := by
        rw [← hs]
        unfold promote
        split <;> rfl
      have hcode : d.code ≠ some .recordTooLarge := by
        intro hc
        have hp := (isError_promote rules.config.validation.strictMode d).2
          (.inl ((Record.isError_iff_of_mem hm).2 hc))
        rw [he] at hp
        cases hp
      exact exists_line_of_mem_diagnostics hl hm hcode hspan
    · exact exists_line_of_mem_overlapFindings hl hd hs
  · unfold lengthFindings at hd
    split at hd
    · rw [(isError_lengthMismatch (Option.mem_toList.1 hd)).2] at he
      cases he
    · cases hd

end

theorem exists_line_of_mem_warnings {rules : Rules} {text : List Char} {c : Compilation}
    (h : ofSource rules (Source.ofText text) = .ok c) {d : Diagnostic} (hd : d ∈ c.warnings)
    {span : Span} (hs : d.primarySpan? = some span) : ∃ line ∈ (Source.ofText text).lines,
      IsAbout rules (Source.ofText text) d line.number ∧ line.Holds span.start := by
  rw [ofSource_eq] at h
  split at h
  · cases h
  · rename_i warnings hlog
    cases h
    obtain ⟨rfl, hall⟩ := (Log.finish_eq_ok_iff _ _).1 hlog
    exact exists_line_of_mem_findings hd (hall d hd) hs

end Compilation

namespace Report

open Compilation

/-- The line that a report gives for a warning is at most the one that the warning is about and on
which its mark starts, and it is that line if no return stands before a feed in the text. -/
theorem reported_line {engine : Pattern.Engine} {config : Rules.Config} {text : List Char}
    {c : Compilation} (h : compileWith engine config (Source.ofText text) = .ok c) :
    ∃ rules, Rules.interpretWith engine config = .ok rules ∧
      ∀ d ∈ c.warnings, ∀ span, d.primarySpan? = some span →
        ∃ line ∈ (Source.ofText text).lines, ∃ n,
          IsAbout rules (Source.ofText text) d line.number ∧ line.Holds span.start ∧
          (Text.physicalLines text)[line.number - 1]?.map Text.dropBreaks = some line.text ∧
          warningValue text d = .object (optional "code" (fun c : Code => .text c.name) d.code ++
            [("severity", .text d.severity.name), ("message", .text d.message),
              ("line", .nat n)]) ∧
          n ≤ line.number ∧ (¬ ['\r', '\n'] <:+: text → n = line.number) := by
  obtain ⟨rules, hi, hc⟩ := exists_rules_of_compile h
  refine ⟨rules, hi, fun d hd span hs => ?_⟩
  obtain ⟨line, hline, habout, hholds⟩ := exists_line_of_mem_warnings hc hd hs
  obtain ⟨i, hplace⟩ := List.mem_iff_getElem?.1 hline
  rw [Source.ofText, Source.getElem?_lines, Option.map_eq_some_iff] at hplace
  obtain ⟨kept, hkept, rfl⟩ := hplace
  have htext : (Text.physicalLines text)[i]?.map Text.dropBreaks = some kept := by
    rwa [← List.getElem?_map]
  -- The mark stands `k` bytes behind the start of its line.
  obtain ⟨k, hk⟩ := Nat.le.dest hholds.1
  have hle : k ≤ Text.byteLength kept := by
    have := hholds.2
    simp only [Span.of] at this hk
    omega
  obtain ⟨hmost, hexact⟩ := Text.feedsBefore_keptLines hkept hle
  refine ⟨_, hline, lineOf text span.start, habout, hholds, htext, ?_, ?_, fun hn => ?_⟩
  · simp only [warningValue, hs, optional, List.append_assoc]
    rfl
  · rw [lineOf, ← hk]
    exact Nat.succ_le_succ hmost
  · rw [lineOf, ← hk]
    exact congrArg (· + 1) (hexact hn)

/-- The only warning of a compilation, by its code and the start of its mark. -/
theorem exists_warning {engine : Pattern.Engine} {config : Rules.Config} {source : Source}
    {code : Code} {start : Nat} (h : ((compileWith engine config source).toOption.map fun c =>
      c.warnings.map fun d => (d.code, d.primarySpan?.map (·.start))) = some [(some code, some start)]) :
    ∃ c, compileWith engine config source = .ok c ∧ ∃ d ∈ c.warnings, d.code = some code ∧
      ∃ span, d.primarySpan? = some span ∧ span.start = start := by
  cases hc : compileWith engine config source with
  | error e =>
    rw [hc] at h
    cases h
  | ok c =>
    rw [hc] at h
    obtain ⟨d, hw, hd⟩ := List.map_eq_singleton_iff.1 (Option.some.inj h)
    obtain ⟨hcode, hstart⟩ := Prod.mk.injEq _ _ _ _ ▸ hd
    obtain ⟨span, hs, rfl⟩ := Option.map_eq_some_iff.1 hstart
    exact ⟨c, rfl, d, by simp [hw], hcode, span, hs, rfl⟩

/-- A text in which every line but the last one ends in a feed alone. -/
theorem reported_line_orphan :
    let text := "01 A.\n\n   88 B VALUE 'X'.".toList
    ¬ ['\r', '\n'] <:+: text ∧ ∃ c, compileWith .plain {} (Source.ofText text) = .ok c ∧
      ∃ d ∈ c.warnings, d.code = some .orphanCondition ∧
        warningValue text d = .object (optional "code" (fun c : Code => .text c.name) d.code ++
          [("severity", .text d.severity.name), ("message", .text d.message), ("line", .nat 3)]) := by
  intro text
  have hn : ¬ ['\r', '\n'] <:+: text := by decide +kernel
  have hwarnings : ((compileWith .plain {} (Source.ofText text)).toOption.map fun c =>
      c.warnings.map fun d => (d.code, d.primarySpan?.map (·.start))) =
        some [(some .orphanCondition, some 7)] := by
    decide +kernel
  have hlines : ∀ line ∈ (Source.ofText text).lines, line.Holds 7 → line.number = 3 := by
    decide +kernel
  obtain ⟨c, hc, d, hd, hcode, span, hs, hstart⟩ := exists_warning hwarnings
  obtain ⟨rules, -, hall⟩ := reported_line hc
  obtain ⟨line, hline, n, -, hholds, -, hv, -, hexact⟩ := hall d hd span hs
  obtain rfl : n = 3 := (hexact hn).trans (hlines line hline (hstart ▸ hholds))
  exact ⟨hn, c, hc, d, hd, hcode, hv⟩

/-- With returns before its feeds, a text has fewer feeds before the mark than lines: the warning is
about the condition name on line 2, and the report gives line 1. -/
theorem reported_line_before_entry :
    let text := "01 A.\r\n   88 B VALUE 'X'.\r\n".toList
    ∃ c, compileWith .plain {} (Source.ofText text) = .ok c ∧
      ∃ d ∈ c.warnings, IsAbout (.standard {} .undivided) (Source.ofText text) d 2 ∧
        (∀ line ∈ (Source.ofText text).lines, ∀ span, d.primarySpan? = some span →
          line.Holds span.start → line.number = 2) ∧
        warningValue text d = .object (optional "code" (fun c : Code => .text c.name) d.code ++
          [("severity", .text d.severity.name), ("message", .text d.message),
            ("line", .nat 1)]) := by
  intro text
  have hwarnings : ((compileWith .plain {} (Source.ofText text)).toOption.map fun c =>
      c.warnings.map fun d => (d.code, d.primarySpan?.map (·.start))) =
        some [(some .orphanCondition, some 6)] := by
    decide +kernel
  have hlines : ∀ line ∈ (Source.ofText text).lines, line.Holds 6 → line.number = 2 := by
    decide +kernel
  have hfeeds : lineOf text 6 = 1 := by decide +kernel
  obtain ⟨c, hc, d, hd, hcode, span, hs, hstart⟩ := exists_warning hwarnings
  obtain ⟨rules, hi, hsource⟩ := exists_rules_of_compile hc
  obtain rfl : Rules.standard {} .undivided = rules :=
    Except.ok.inj (Rules.interpret_default.symm.trans hi)
  obtain ⟨line, hline, habout, hholds⟩ := exists_line_of_mem_warnings hsource hd hs
  have hnumber : line.number = 2 := hlines line hline (hstart ▸ hholds)
  refine ⟨c, hc, d, hd, hnumber ▸ habout, fun line hline span' hs' hh => ?_, ?_⟩
  · obtain rfl : span = span' := Option.some.inj (hs.symm.trans hs')
    exact hlines line hline (hstart ▸ hh)
  · simp only [warningValue, hs, optional, List.append_assoc, hstart, hfeeds]
    rfl

end Report

end DataDivision
