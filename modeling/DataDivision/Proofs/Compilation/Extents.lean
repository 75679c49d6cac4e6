import DataDivision.Proofs.Compilation.Exactness
import DataDivision.Proofs.Compilation.Quiet
import DataDivision.Proofs.Record.Length

/-!
Extents and lengths in layouts.

A group of a layout ends behind everything inside it, and starts before that unless some
redefinition goes back to storage before the group it stands in.  The longest record is the whole
layout; the shortest one may be longer where the rules drop the bytes at its end.
-/

namespace DataDivision.Compilation

/-- The fields that the lines of a record type declare, dropped ones among them. -/
def declaredFields (rules : Rules) (source : Source) (label : String) : List Field :=
  (Record.Walk.run rules (entriesOf rules source label)).fields

/-- The layout of a record type is that of the rules which the configuration stands for, and its
record is not too large. -/
theorem exists_layout_of_compile {engine : Pattern.Engine} {config : Rules.Config}
    {source : Source} {c : Compilation} (hc : compileWith engine config source = .ok c)
    {label : String} {layout : Layout} (hm : (label, layout) ∈ c.layouts) :
    ∃ rules, layout = layoutOf rules source label ∧
      (Record.ofEntries rules (entriesOf rules source label)).reports .recordTooLarge = false ∧
      ∀ rules', Rules.interpretWith engine config = .ok rules' → rules' = rules := by
  obtain ⟨rules, hi, hs⟩ := exists_rules_of_compile hc
  obtain ⟨rfl, hr⟩ := layout_of_ofSource hs hm
  rw [recordOf_eq] at hr
  exact ⟨rules, rfl, hr, fun rules' hi' => Except.ok.inj (hi'.symm.trans hi)⟩

/-- Items with bytes end inside all groups around them, and start inside them if no redefinition
goes back before the group around it. -/
theorem group_contains_items {engine : Pattern.Engine} {config : Rules.Config} {source : Source}
    {c : Compilation} (hc : compileWith engine config source = .ok c) {label : String}
    {layout : Layout} (hm : (label, layout) ∈ c.layouts) {a i : Nat} {f g : Field}
    (he : Record.Encloses layout.fields a i) (hf : layout.fields[i]? = some f)
    (hk : f.isElementary = true) (hb : 0 < f.storageLength) (hg : layout.fields[a]? = some g) :
    f.endPosition ≤ g.endPosition ∧
      ∀ rules, Rules.interpretWith engine config = .ok rules →
        Record.IsConfined (declaredFields rules source label) →
          g.startPosition ≤ f.startPosition := by
  obtain ⟨rules, rfl, hr, hunique⟩ := exists_layout_of_compile hc hm
  rw [fields_layoutOf, recordOf_eq] at he hf hg
  refine ⟨Record.end_le_of_encloses hr he hf hk hb hg, fun rules' hi' hconf => ?_⟩
  obtain rfl := hunique rules' hi'
  exact Record.start_le_of_encloses hconf he hf hg

/-- A table inside a group that redefines an item: its elements start and end inside the group
around both. -/
theorem group_contains_items_redefinition :
    let source := Source.ofLines (["01 A.", "   05 B.", "      10 C PIC X(4).",
      "      10 D REDEFINES C.", "         15 E PIC X(2) OCCURS 3.",
      "   05 F PIC X."].map String.toList)
    ∃ c, compileWith .plain {} source = .ok c ∧ ∃ layout, ("DATA", layout) ∈ c.layouts ∧
      ∃ f g, layout.fields[4]? = some f ∧ layout.fields[1]? = some g ∧ f.endPosition = 6 ∧
        f.endPosition ≤ g.endPosition ∧ g.startPosition ≤ f.startPosition := by
  intro source
  let rules := Rules.standard {} .undivided
  have hfacts : Quiet rules source ∧ "DATA" ∈ recordTypes rules source ∧
      Record.IsConfined (declaredFields rules source "DATA") ∧
      Record.parentOf (layoutOf rules source "DATA").fields 4 = some 3 ∧
      Record.parentOf (layoutOf rules source "DATA").fields 3 = some 1 ∧
      (layoutOf rules source "DATA").fields[1]?.isSome = true ∧
      ∃ f ∈ (layoutOf rules source "DATA").fields[4]?, f.isElementary = true ∧
        0 < f.storageLength ∧ f.endPosition = 6 := by decide +kernel
  obtain ⟨hq, hlabel, hconf, houter, hinner, hg, f, hf, hk, hb, hend⟩ := hfacts
  obtain ⟨g, hg⟩ := Option.isSome_iff_exists.1 hg
  obtain ⟨c, hc, -, hlayouts⟩ := hq.exists_compile Rules.interpret_default
  have hm := hlayouts "DATA" hlabel
  obtain ⟨hle, hge⟩ := group_contains_items hc hm (.outer houter (.parent hinner)) hf hk hb hg
  exact ⟨c, hc, _, hm, f, g, hf, hg, hend, hle, hge rules Rules.interpret_default hconf⟩

/-- A redefinition of an item in an earlier group is accepted without a warning, and stands before
the group around it. -/
theorem redefinition_outside_group :
    let source := Source.ofLines (["01 A.", "   05 G1.", "      10 X PIC X(4).", "   05 G2.",
      "      10 Y REDEFINES X PIC X(2)."].map String.toList)
    ∃ c, compileWith .plain {} source = .ok c ∧ c.warnings = [] ∧
      ∃ layout, ("DATA", layout) ∈ c.layouts ∧ Record.Encloses layout.fields 3 4 ∧
        ∃ f g, layout.fields[4]? = some f ∧ f.isElementary = true ∧ 0 < f.storageLength ∧
          layout.fields[3]? = some g ∧
          ¬ (g.startPosition ≤ f.startPosition ∧ f.endPosition ≤ g.endPosition) := by
  intro source
  let rules := Rules.standard {} .undivided
  have hfacts : Quiet rules source ∧ "DATA" ∈ recordTypes rules source ∧
      Record.parentOf (layoutOf rules source "DATA").fields 4 = some 3 ∧
      ∃ f ∈ (layoutOf rules source "DATA").fields[4]?, f.isElementary = true ∧
        0 < f.storageLength ∧ ∃ g ∈ (layoutOf rules source "DATA").fields[3]?,
        f.startPosition < g.startPosition := by decide +kernel
  obtain ⟨hq, hlabel, hparent, f, hf, hk, hb, g, hg, hlt⟩ := hfacts
  obtain ⟨c, hc, hwarnings, hlayouts⟩ := hq.exists_compile Rules.interpret_default
  exact ⟨c, hc, hwarnings, _, hlayouts "DATA" hlabel, .parent hparent, f, g, hf, hk, hb, hg,
    by omega⟩

/-- The longest record is the whole layout.  The shortest one is no longer than all declared fields,
unless all records start behind those, which takes a redefinition that goes back before the group
around it.  Hence it is no longer than the layout if nothing that the rules drop reaches behind
that. -/
theorem record_lengths {engine : Pattern.Engine} {config : Rules.Config} {source : Source}
    {c : Compilation} (hc : compileWith engine config source = .ok c) {label : String}
    {layout : Layout} (hm : (label, layout) ∈ c.layouts) :
    layout.statistics.maxLength = layout.statistics.totalLength ∧
      ∀ rules, Rules.interpretWith engine config = .ok rules →
        let declared := declaredFields rules source label
        let levels := rules.config.fieldProcessing.recordLevels
        (Layout.StartsWithin levels layout.fields (Layout.totalLength declared) →
          layout.statistics.minLength ≤ Layout.totalLength declared ∧
          (Record.DropsWithin rules declared layout.statistics.totalLength →
            layout.statistics.minLength ≤ layout.statistics.maxLength)) ∧
        (Record.IsConfined declared →
          Layout.StartsWithin levels layout.fields (Layout.totalLength declared)) := by
  obtain ⟨rules, rfl, hr, hunique⟩ := exists_layout_of_compile hc hm
  refine ⟨rfl, fun rules' hi' => ?_⟩
  obtain rfl := hunique rules' hi'
  rw [fields_layoutOf, recordOf_eq]
  refine ⟨fun hw => ?_, fun hconf => Record.startsWithin_of_isConfined hconf _⟩
  have hmin := Record.minLength_le hr hw
  exact ⟨hmin, fun hd => Nat.le_trans hmin (Record.totalLength_le_ofEntries hd)⟩

/-- A record with a dropped filler in its middle: both lengths are those of all its bytes. -/
theorem record_lengths_inner_filler :
    let source := Source.ofLines (["01 A.", "   05 B PIC X(2).", "   05 FILLER PIC X(3).",
      "   05 C PIC X."].map String.toList)
    ∃ c, compileWith .plain {} source = .ok c ∧ ∃ layout, ("DATA", layout) ∈ c.layouts ∧
      layout.statistics.totalLength = 6 ∧
      layout.statistics.maxLength = layout.statistics.totalLength ∧
      layout.statistics.minLength ≤ layout.statistics.maxLength := by
  intro source
  let rules := Rules.standard {} .undivided
  have hfacts : Quiet rules source ∧ "DATA" ∈ recordTypes rules source ∧
      Record.IsConfined (declaredFields rules source "DATA") ∧
      Record.DropsWithin rules (declaredFields rules source "DATA")
        (layoutOf rules source "DATA").statistics.totalLength ∧
      (layoutOf rules source "DATA").statistics.totalLength = 6 := by decide +kernel
  obtain ⟨hq, hlabel, hconf, hdrop, htotal⟩ := hfacts
  obtain ⟨c, hc, -, hlayouts⟩ := hq.exists_compile Rules.interpret_default
  obtain ⟨hmax, hmin⟩ := record_lengths hc (hlayouts "DATA" hlabel)
  obtain ⟨hle, hstarts⟩ := hmin rules Rules.interpret_default
  exact ⟨c, hc, _, hlayouts "DATA" hlabel, htotal, hmax,
    (hle (hstarts hconf)).2 hdrop⟩

/-- The shortest record is longer than the layout where a filler at its end is dropped, and where a
record starts behind the bytes that all its items redefine. -/
theorem shortest_record_longer :
    (∃ c, compileWith .plain {} (Source.ofLines (["01 A.", "   05 B PIC X(2).",
        "   05 FILLER PIC X(3)."].map String.toList)) = .ok c ∧
      ∃ layout, ("DATA", layout) ∈ c.layouts ∧
        ¬ layout.statistics.minLength ≤ layout.statistics.maxLength) ∧
    ∃ c, compileWith .plain {} (Source.ofLines (["05 X PIC X(4).", "01 B.",
        "   05 Y REDEFINES X PIC X(2)."].map String.toList)) = .ok c ∧
      ∃ layout, ("DATA", layout) ∈ c.layouts ∧
        ¬ layout.statistics.minLength ≤ layout.statistics.maxLength := by
  let rules := Rules.standard {} .undivided
  have hexists : ∀ source, (Quiet rules source ∧ "DATA" ∈ recordTypes rules source ∧
      (layoutOf rules source "DATA").statistics.maxLength <
        (layoutOf rules source "DATA").statistics.minLength) →
      ∃ c, compileWith .plain {} source = .ok c ∧ ∃ layout, ("DATA", layout) ∈ c.layouts ∧
        ¬ layout.statistics.minLength ≤ layout.statistics.maxLength := by
    rintro source ⟨hq, hlabel, hlt⟩
    obtain ⟨c, hc, -, hlayouts⟩ := hq.exists_compile Rules.interpret_default
    exact ⟨c, hc, _, hlayouts "DATA" hlabel, by omega⟩
  exact ⟨hexists _ (by decide +kernel), hexists _ (by decide +kernel)⟩

end DataDivision.Compilation
