import DataDivision.Proofs.Compilation.Exactness
import DataDivision.Proofs.Compilation.Quiet
import DataDivision.Proofs.Layout.Lines
import DataDivision.Proofs.Record.Relocation

/-!
Record types do not depend on one another.

The layout of a record type follows from the texts of its own lines alone.  Other lines move the
entries of a record type to other places of the source, and a place reaches nothing but the line
numbers of fields (`layoutOf_congr`).
-/

namespace DataDivision.Compilation

/-! ## Layouts by record type -/

theorem mem_recordTypes_iff {rules : Rules} {source : Source} {label : String} :
    label ∈ recordTypes rules source ↔ linesOf rules source label ≠ [] := by
  rw [recordTypes, List.mem_eraseDups, List.mem_map]
  constructor
  · rintro ⟨line, hm, hl⟩
    exact List.ne_nil_of_mem (List.mem_filter.2 ⟨hm, beq_iff_eq.2 hl⟩)
  · intro hne
    obtain ⟨line, hm⟩ := List.exists_mem_of_ne_nil _ hne
    obtain ⟨hm, hl⟩ := List.mem_filter.1 hm
    exact ⟨line, hm, beq_iff_eq.1 hl⟩

theorem lookup_map_mk {α : Type} (f : String → α) (labels : List String) (label : String) :
    (labels.map fun l => (l, f l)).lookup label =
      if label ∈ labels then some (f label) else none := by
  induction labels with
  | nil => rfl
  | cons l rest ih =>
    rw [List.map_cons, List.lookup_cons, ih]
    by_cases h : label = l
    · simp [h]
    · simp [h, beq_eq_false_iff_ne.2 h]

/-- A label has a layout if it has lines. -/
theorem lookup_layouts {rules : Rules} {source : Source} {c : Compilation}
    (h : ofSource rules source = .ok c) (label : String) :
    c.layouts.lookup label =
      if linesOf rules source label = [] then none else some (layoutOf rules source label) := by
  rw [layouts_eq_of_ofSource h, lookup_map_mk]
  simp only [mem_recordTypes_iff, ne_eq, ite_not]

/-! ## Lines elsewhere -/

/-- Lines with the same texts have the same layout, wherever they stand. -/
theorem layoutOf_congr (rules : Rules) {a b : Source} {label : String}
    (h : (linesOf rules a label).map (·.text) = (linesOf rules b label).map (·.text)) :
    (layoutOf rules a label).withoutLines = (layoutOf rules b label).withoutLines := by
  have hfields : (recordOf rules a label).fields.map Field.withoutLine =
      (recordOf rules b label).fields.map Field.withoutLine := Record.fields_ofLines_congr rules h
  have hassemble : ∀ source, (layoutOf rules source label).withoutLines =
      (Layout.Assembler.assemble
        { template := rules.config.layoutGeneration.namingConvention
          checkOverlaps := rules.config.validation.validateFieldOverlaps
          recordLevels := rules.config.fieldProcessing.recordLevels }
        label ((recordOf rules source label).fields.map Field.withoutLine)).1 := fun source =>
    (Layout.assemble_withoutLine (recordOf rules source label).fields _ label).symm
  rw [hassemble, hassemble, hfields]

/-- Two compilations have the same layout for a record type, or both none; the line numbers of its
fields may differ. -/
def SameLayout (label : String) (c c' : Compilation) : Prop :=
  (c.layouts.lookup label).map Layout.withoutLines =
    (c'.layouts.lookup label).map Layout.withoutLines

theorem sameLayout_of_ofSource {rules : Rules} {a b : Source} {label : String}
    (h : (linesOf rules a label).map (·.text) = (linesOf rules b label).map (·.text))
    {ca cb : Compilation} (ha : ofSource rules a = .ok ca) (hb : ofSource rules b = .ok cb) :
    SameLayout label ca cb := by
  have hnil : linesOf rules a label = [] ↔ linesOf rules b label = [] := by
    rw [← List.map_eq_nil_iff (f := (·.text)), h, List.map_eq_nil_iff]
  rw [SameLayout, lookup_layouts ha, lookup_layouts hb]
  by_cases hb : linesOf rules b label = []
  · rw [if_pos hb, if_pos (hnil.2 hb)]
  · rw [if_neg hb, if_neg (mt hnil.1 hb), Option.map_some, Option.map_some, layoutOf_congr rules h]

/-! ## Lines in between -/

/-- A line of the given text is blank, or a comment, or of another record type. -/
def isForeign (rules : Rules) (label : String) (text : List Char) : Bool :=
  let line : Line := ⟨1, Text.dropBreaks text, Span.of 0 0⟩
  line.isComment || labelOf rules line != label

/-- Some lines, and the same lines with others between them that are foreign to a record type. -/
inductive Interspersed (rules : Rules) (label : String) :
    List (List Char) → List (List Char) → Prop
  | nil : Interspersed rules label [] []
  | keep (text : List Char) {texts texts' : List (List Char)}
      (rest : Interspersed rules label texts texts') :
      Interspersed rules label (text :: texts) (text :: texts')
  | insert (text : List Char) {texts texts' : List (List Char)}
      (foreign : isForeign rules label text = true)
      (rest : Interspersed rules label texts texts') :
      Interspersed rules label texts (text :: texts')

theorem texts_filter_place (rules : Rules) (label : String) (number offset : Nat)
    (texts : List (List Char)) :
    ((Source.place number offset (texts.map Text.dropBreaks)).filter fun line =>
        !line.isComment && labelOf rules line == label).map (·.text) =
      (texts.filter fun text => !isForeign rules label text).map Text.dropBreaks := by
  induction texts generalizing number offset with
  | nil => rfl
  | cons text rest ih =>
    have hown : ∀ span, (!(⟨number, Text.dropBreaks text, span⟩ : Line).isComment &&
        labelOf rules ⟨number, Text.dropBreaks text, span⟩ == label) =
        !isForeign rules label text := by
      intro span
      simp only [isForeign, Bool.not_or, bne, Bool.not_not]
      rfl
    simp only [List.map_cons, Source.place, List.filter_cons, hown]
    split
    · rw [List.map_cons, List.map_cons, ih]
    · exact ih _ _

theorem texts_linesOf (rules : Rules) (label : String) (texts : List (List Char)) :
    (linesOf rules (.ofLines texts) label).map (·.text) =
      (texts.filter fun text => !isForeign rules label text).map Text.dropBreaks := by
  rw [← texts_filter_place rules label 1 0 texts, linesOf, Source.content, List.filter_filter]
  simp only [Bool.and_comm]
  rfl

theorem Interspersed.filter_eq {rules : Rules} {label : String} {texts texts' : List (List Char)}
    (h : Interspersed rules label texts texts') :
    (texts.filter fun text => !isForeign rules label text) =
      texts'.filter fun text => !isForeign rules label text := by
  induction h with
  | nil => rfl
  | keep text rest ih => rw [List.filter_cons, List.filter_cons, ih]
  | insert text foreign rest ih => rw [List.filter_cons, foreign, ih]; rfl

/-- The layout of a record type depends on the texts of its own lines alone.  Comments, blank lines
and lines of other record types, inserted anywhere, make no difference. -/
theorem layouts_depend_on_own_lines {engine : Pattern.Engine} {config : Rules.Config}
    {rules : Rules} (hi : Rules.interpretWith engine config = .ok rules) (label : String) :
    (∀ (a b : Source) (ca cb : Compilation),
      (linesOf rules a label).map (·.text) = (linesOf rules b label).map (·.text) →
      compileWith engine config a = .ok ca → compileWith engine config b = .ok cb →
      SameLayout label ca cb) ∧
    ∀ (texts texts' : List (List Char)) (ca cb : Compilation),
      Interspersed rules label texts texts' → compileWith engine config (.ofLines texts) = .ok ca →
      compileWith engine config (.ofLines texts') = .ok cb → SameLayout label ca cb := by
  have hsource : ∀ source, compileWith engine config source = ofSource rules source := by
    intro source
    simp only [compileWith, hi]
  simp only [hsource]
  refine ⟨fun a b ca cb h ha hb => sameLayout_of_ofSource h ha hb, ?_⟩
  intro texts texts' ca cb h ha hb
  refine sameLayout_of_ofSource ?_ ha hb
  rw [texts_linesOf, texts_linesOf, h.filter_eq]

/-- Headers and details, told apart by the first column. -/
def headersAndDetails : Rules.Config where
  ruleType := "position-based"
  recordTypeField := some {
    start := some 1
    length := some 1
    values := [("D", "DETAIL"), ("H", "HEADER")] }

/-- A header alone, and with a detail, a comment and a blank line in between. -/
theorem layouts_depend_on_own_lines_interspersed :
    let texts := ["H 01 A.", "H    05 B PIC X(3)."].map String.toList
    let texts' := ["D 01 C.", "H 01 A.", "      * B", "", "H    05 B PIC X(3).",
      "D    05 E PIC X(2)."].map String.toList
    ∃ ca cb, compileWith .plain headersAndDetails (.ofLines texts) = .ok ca ∧
      compileWith .plain headersAndDetails (.ofLines texts') = .ok cb ∧ SameLayout "HEADER" ca cb ∧
      (ca.layouts.lookup "HEADER").map (·.fields.map (·.line)) = some [1, 2] ∧
      (cb.layouts.lookup "HEADER").map (·.fields.map (·.line)) = some [2, 5] := by
  intro texts texts'
  let rules := Rules.standard headersAndDetails
    (.position ⟨1, 1, [("D", "DETAIL"), ("H", "HEADER")], true, false⟩)
  have hi : Rules.interpretWith .plain headersAndDetails = .ok rules :=
    Rules.interpret_eq_standard rfl rfl rfl
  have hin : Interspersed rules "HEADER" texts texts' :=
    .insert _ (by decide +kernel) (.keep _ (.insert _ (by decide +kernel)
      (.insert _ (by decide +kernel) (.keep _ (.insert _ (by decide +kernel) .nil)))))
  have hlone : Quiet rules (.ofLines texts) ∧ linesOf rules (.ofLines texts) "HEADER" ≠ [] ∧
      (layoutOf rules (.ofLines texts) "HEADER").fields.map (·.line) = [1, 2] := by
    decide +kernel
  have hmixed : Quiet rules (.ofLines texts') ∧ linesOf rules (.ofLines texts') "HEADER" ≠ [] ∧
      (layoutOf rules (.ofLines texts') "HEADER").fields.map (·.line) = [2, 5] := by
    decide +kernel
  obtain ⟨ca, ha, -⟩ := hlone.1.exists_compile hi
  obtain ⟨cb, hb, -⟩ := hmixed.1.exists_compile hi
  have hsame := (layouts_depend_on_own_lines hi "HEADER").2 texts texts' ca cb hin ha hb
  refine ⟨ca, cb, ha, hb, hsame, ?_, ?_⟩
  · simp only [compileWith, hi] at ha
    rw [lookup_layouts ha, if_neg hlone.2.1, Option.map_some, hlone.2.2]
  · simp only [compileWith, hi] at hb
    rw [lookup_layouts hb, if_neg hmixed.2.1, Option.map_some, hmixed.2.2]

end DataDivision.Compilation
