import DataDivision.Proofs.Record.Arena
import DataDivision.Proofs.Record.Ranks
import DataDivision.Proofs.Rules.Interpretation

/-!
What dropping fields hides.

Rules may leave fields out, but they never change the others.  Under rules that keep all fields a
record holds everything that is declared (`getElem?_prune_keepingAll`); under rules that drop some
it holds the fields that stay, in the same order and with the same bytes, and each link leads to the
image of what it led to (`dropping_only_hides`).
-/

namespace DataDivision

/-- The same rules, but for the fields that they drop: none. -/
def Rules.keepingAll (rules : Rules) : Rules :=
  { rules with config := { rules.config with fieldProcessing := { rules.config.fieldProcessing with
      includeFillers := true
      excludeFieldNames := [] } } }

/-- A configuration is interpreted alike whatever fields it drops. -/
theorem Rules.interpret_keepingAll {engine : Pattern.Engine} {config : Rules.Config}
    {rules : Rules} (h : Rules.interpretWith engine config = .ok rules) :
    Rules.interpretWith engine rules.keepingAll.config = .ok rules.keepingAll := by
  obtain ⟨hs, hl, hu, hn, hp, hg, hf, hstart, hc⟩ := Rules.interpret_eq_ok_iff.1 h
  subst hc
  exact Rules.interpret_eq_ok_iff.2 ⟨hs, hl, hu, hn, hp, hg, hf, hstart, rfl⟩

namespace Record

/-! ## Fields that stay -/

/-- A field stays if it is not dropped, and a condition name if its field is not dropped either. -/
def stays (processing : Rules.FieldProcessing) (fields : List Field) (f : Field) : Bool :=
  !isDropped processing f && f.host.all fun h => fields[h]?.any fun g => !isDropped processing g

/-- The index of a field among those that stay. -/
def image? (processing : Rules.FieldProcessing) (fields : List Field) (i : Nat) : Option Nat :=
  if fields[i]?.any (stays processing fields) then some (rank (stays processing fields) fields i)
  else none

/-- The image of the nearest group around a field that stays. -/
def parentImage? (processing : Rules.FieldProcessing) (fields : List Field) (f : Field) :
    Option Nat :=
  f.parent.bind fun p => (chain (parentOf fields) p).findSome? (image? processing fields)

theorem image?_eq_some_iff {processing : Rules.FieldProcessing} {fields : List Field} {i k : Nat} :
    image? processing fields i = some k ↔ ∃ f, fields[i]? = some f ∧
      stays processing fields f = true ∧ rank (stays processing fields) fields i = k := by
  unfold image?
  rw [Option.ite_none_right_eq_some, Option.any_eq_true, Option.some.injEq]
  constructor
  · rintro ⟨⟨f, hf, hs⟩, hk⟩
    exact ⟨f, hf, hs, hk⟩
  · rintro ⟨f, hf, hs, hk⟩
    exact ⟨⟨f, hf, hs⟩, hk⟩

/-- Only what is dropped, and what condition names describe, matters for images. -/
theorem image?_congr {processing : Rules.FieldProcessing} {fields fields' : List Field}
    (h : fields.map (fun f => (isDropped processing f, f.host)) =
      fields'.map fun f => (isDropped processing f, f.host)) :
    image? processing fields = image? processing fields' := by
  let passes (seen : List (Bool × Option Nat)) (x : Bool × Option Nat) : Bool :=
    !x.1 && x.2.all fun h => seen[h]?.any fun y => !y.1
  have hview : ∀ (fs : List Field) (i : Nat), image? processing fs i =
      let seen := fs.map fun f => (isDropped processing f, f.host)
      if seen[i]?.any (passes seen) then some (rank (passes seen) seen i) else none := by
    intro fs i
    have hstays : stays processing fs = passes (fs.map fun f => (isDropped processing f, f.host)) ∘
        fun f => (isDropped processing f, f.host) := by
      funext f
      simp only [stays, passes, Function.comp_apply, List.getElem?_map, Option.any_map]
    simp only [image?, rank_map, List.getElem?_map, Option.any_map, ← hstays]
    rw [hstays]
    rfl
  funext i
  rw [hview, hview, h]

/-- Images keep the order of the fields. -/
theorem image?_lt_iff {processing : Rules.FieldProcessing} {fields : List Field} {i j k l : Nat}
    (hi : image? processing fields i = some k) (hj : image? processing fields j = some l) :
    k < l ↔ i < j := by
  obtain ⟨f, hf, hfs, rfl⟩ := image?_eq_some_iff.1 hi
  obtain ⟨g, hg, hgs, rfl⟩ := image?_eq_some_iff.1 hj
  exact rank_lt_iff hf hfs hg hgs

/-- The field that a condition name describes is an item, which describes nothing itself. -/
theorem IsLinked.host_eq_none {fields : List Field} (h : IsLinked fields) {i j : Nat} {f : Field}
    (hi : fields[i]? = some f) (hj : f.host = some j) :
    ∃ g, fields[j]? = some g ∧ g.host = none := by
  obtain ⟨-, -, g, hg, he, -⟩ := (h i f hi).host j hj
  refine ⟨g, hg, Option.eq_none_iff_forall_ne_some.2 fun k hk => ?_⟩
  have hc := ((h j g hg).host k hk).1
  simp only [Field.isElementary, Field.isCondition, beq_iff_eq] at he hc
  rw [he] at hc
  cases hc

/-- Deleted are the fields that are dropped, and condition names with the field they describe. -/
theorem isSome_image?_iff {processing : Rules.FieldProcessing} {fields : List Field}
    (h : IsLinked fields) {i : Nat} {f : Field} (hi : fields[i]? = some f) :
    (image? processing fields i).isSome = true ↔ isDropped processing f = false ∧
      ∀ j ∈ f.host, (image? processing fields j).isSome = true := by
  have hsome : ∀ {i : Nat} {f : Field}, fields[i]? = some f →
      (image? processing fields i).isSome = stays processing fields f := by
    intro i f hi
    rw [image?, hi, Option.any_some]
    cases stays processing fields f <;> rfl
  rw [hsome hi, stays, Bool.and_eq_true, Bool.not_eq_true']
  refine and_congr_right fun _ => ?_
  cases hh : f.host with
  | none => simp
  | some j =>
    obtain ⟨g, hg, hnone⟩ := h.host_eq_none hi hh
    simp [hg, hsome hg, stays, hnone]

/-- The fields that get a new number are those that stay. -/
theorem isSome_renumbered (rules : Rules) {fields : List Field} (h : IsLinked fields) {i : Nat}
    {f : Field} (hi : fields[i]? = some f) :
    (renumbered (numbersOf rules fields) i).isSome =
      stays rules.config.fieldProcessing fields f := by
  have hn := numbering_numbersOf rules fields
  have hback : ∀ {i : Nat} {f : Field}, fields[i]? = some f → ∀ j ∈ f.host, j < i :=
    fun hi j hj => ((h _ _ hi).host j hj).2.1
  rw [Bool.eq_iff_iff, hn.isSome_iff i f hi (hback hi), stays, Bool.and_eq_true, Bool.not_eq_true']
  refine and_congr_right fun _ => ?_
  cases hh : f.host with
  | none => simp
  | some j =>
    obtain ⟨g, hg, hnone⟩ := h.host_eq_none hi hh
    have hiff := hn.isSome_iff j g hg (hback hg)
    simpa [hg, hnone] using hiff

theorem map_isSome_numbersOf (rules : Rules) {fields : List Field} (h : IsLinked fields) :
    (numbersOf rules fields).map (·.isSome) =
      fields.map (stays rules.config.fieldProcessing fields) := by
  have hn := numbering_numbersOf rules fields
  refine List.ext_getElem? fun i => ?_
  rw [List.getElem?_map, List.getElem?_map]
  cases hi : fields[i]? with
  | none =>
    rw [List.getElem?_eq_none_iff] at hi
    rw [List.getElem?_eq_none_iff.2 (hn.length_eq ▸ hi)]
    rfl
  | some f =>
    have hlt : i < (numbersOf rules fields).length :=
      hn.length_eq ▸ (List.getElem?_eq_some_iff.1 hi).1
    have hs := isSome_renumbered rules h hi
    rw [renumbered, List.getElem?_eq_getElem hlt, Option.bind_some, id] at hs
    rw [List.getElem?_eq_getElem hlt, Option.map_some, Option.map_some, hs]

/-- The new number of a field is its index among those that stay. -/
theorem renumbered_eq_image? (rules : Rules) {fields : List Field} (h : IsLinked fields) :
    renumbered (numbersOf rules fields) = image? rules.config.fieldProcessing fields := by
  have hn := numbering_numbersOf rules fields
  have hrank : ∀ i, ((numbersOf rules fields).take i).countP (·.isSome) =
      rank (stays rules.config.fieldProcessing fields) fields i := by
    intro i
    have hcount := congrArg (fun l : List Bool => (l.take i).countP id)
      (map_isSome_numbersOf rules h)
    simp only [← List.map_take, List.countP_map] at hcount
    exact hcount
  funext i
  cases hi : fields[i]? with
  | none =>
    have hlt : (numbersOf rules fields)[i]? = none := by
      rw [List.getElem?_eq_none_iff, hn.length_eq]
      exact List.getElem?_eq_none_iff.1 hi
    simp [renumbered, image?, hi, hlt]
  | some f =>
    have hs := isSome_renumbered rules h hi
    rw [image?, hi, Option.any_some, ← hs]
    cases hk : renumbered (numbersOf rules fields) i with
    | none => rfl
    | some k => simp [hn.number_eq i k hk, hrank]

/-! ## Records with all fields -/

/-- Nothing is laid out differently for fields that are dropped. -/
theorem run_keepingAll (rules : Rules) (entries : List Entry) :
    Walk.run rules.keepingAll entries = Walk.run rules entries :=
  Walk.run_congr ⟨rfl, rfl, rfl, rfl⟩ rfl entries

theorem image?_keepingAll (rules : Rules) {fields : List Field} (h : IsLinked fields) {i : Nat}
    {f : Field} (hi : fields[i]? = some f) :
    image? rules.keepingAll.config.fieldProcessing fields i = some i := by
  have hdrop : ∀ f, isDropped rules.keepingAll.config.fieldProcessing f = false := by
    simp [isDropped, Rules.keepingAll]
  have hall : ∀ f ∈ fields, stays rules.keepingAll.config.fieldProcessing fields f = true := by
    intro f hf
    obtain ⟨i, hi⟩ := List.mem_iff_getElem?.1 hf
    cases hh : f.host with
    | none => simp [stays, hdrop, hh]
    | some j =>
      obtain ⟨-, -, g, hg, -⟩ := (h i f hi).host j hh
      simp [stays, hdrop, hh, hg]
  refine image?_eq_some_iff.2 ⟨f, hi, hall f (List.mem_of_getElem? hi), ?_⟩
  rw [rank, List.countP_eq_length.2 fun x hx => hall x (List.mem_of_mem_take hx),
    List.length_take, Nat.min_eq_left (Nat.le_of_lt (List.getElem?_eq_some_iff.1 hi).1)]

theorem findSome?_chain_self {next g : Nat → Option Nat} {i k : Nat} (h : g i = some k) :
    (chain next i).findSome? g = some k := by
  rw [chain, List.findSome?_cons, h]

/-- With nothing dropped, all links stay. -/
theorem relink_keepingAll (rules : Rules) {fields : List Field} (h : IsLinked fields) {i : Nat}
    {f : Field} (hf : fields[i]? = some f) :
    relink rules.keepingAll fields (numbersOf rules.keepingAll fields) f =
      { f with outputName := outputName rules f.name } := by
  have hl := h i f hf
  have hparent : keptParent fields (numbersOf rules.keepingAll fields) f = f.parent := by
    rw [keptParent, renumbered_eq_image? rules.keepingAll h]
    split
    · rename_i hc
      exact (hl.condition hc).1.symm
    · cases hp : f.parent with
      | none => rfl
      | some p =>
        obtain ⟨-, g, hg, -⟩ := hl.parent p hp
        exact findSome?_chain_self (image?_keepingAll rules h hg)
  have hhost : f.host.bind (image? rules.keepingAll.config.fieldProcessing fields) = f.host := by
    cases hh : f.host with
    | none => rfl
    | some j =>
      obtain ⟨-, -, g, hg, -⟩ := hl.host j hh
      exact image?_keepingAll rules h hg
  have htarget : f.redefinesTarget.bind (image? rules.keepingAll.config.fieldProcessing fields) =
      f.redefinesTarget := by
    cases ht : f.redefinesTarget with
    | none => rfl
    | some t =>
      obtain ⟨-, g, hg, -⟩ := hl.target t ht
      exact image?_keepingAll rules h hg
  rw [relink, hparent, renumbered_eq_image? rules.keepingAll h, hhost, htarget]
  rfl

/-- Under rules that keep all fields a record holds the declared fields at their indices, with their
output names and with the lists of what refers to them. -/
theorem getElem?_prune_keepingAll (rules : Rules) {fields : List Field} (h : IsLinked fields)
    (i : Nat) :
    (prune rules.keepingAll fields)[i]? = fields[i]?.map fun f : Field =>
      { f with
        outputName := outputName rules f.name
        children := indicesOf (prune rules.keepingAll fields) fun g => g.parent == some i
        conditionNames := indicesOf (prune rules.keepingAll fields) fun g => g.host == some i } := by
  apply Option.ext
  intro f'
  rw [getElem?_prune, Option.map_eq_some_iff, renumbered_eq_image? rules.keepingAll h]
  constructor
  · rintro ⟨j, f, hf, hj, rfl⟩
    rw [image?_keepingAll rules h hf, Option.some.injEq] at hj
    subst hj
    exact ⟨f, hf, by rw [relink_keepingAll rules h hf]⟩
  · rintro ⟨f, hf, rfl⟩
    exact ⟨i, f, hf, image?_keepingAll rules h hf, by rw [relink_keepingAll rules h hf]⟩

/-- Which fields stay, and their images, can be read off the record that has all of them. -/
theorem image?_prune_keepingAll (rules : Rules) {fields : List Field} (h : IsLinked fields) :
    image? rules.config.fieldProcessing (prune rules.keepingAll fields) =
      image? rules.config.fieldProcessing fields := by
  refine image?_congr (List.ext_getElem? fun i => ?_)
  rw [List.getElem?_map, List.getElem?_map, getElem?_prune_keepingAll rules h, Option.map_map]
  rfl

theorem parentOf_prune_keepingAll (rules : Rules) {fields : List Field} (h : IsLinked fields) :
    parentOf (prune rules.keepingAll fields) = parentOf fields := by
  funext i
  rw [parentOf, parentOf, getElem?_prune_keepingAll rules h]
  cases fields[i]? <;> rfl

/-! ## Dropping fields -/

/-- The fields that `kept` are those of `all` that stay, in their order and as they were, but that
every link leads to the image of what it led to: the parent to that of the nearest group that stays,
the others to that of the same field, if it stays. -/
structure Hides (processing : Rules.FieldProcessing) (all kept : List Field) : Prop where
  kept_iff : ∀ (k : Nat) (f' : Field), kept[k]? = some f' ↔
    ∃ (i : Nat) (f : Field), all[i]? = some f ∧ image? processing all i = some k ∧ f' = { f with
      parent := parentImage? processing all f
      host := f.host.bind (image? processing all)
      redefinesTarget := f.redefinesTarget.bind (image? processing all)
      children := indicesOf kept fun g => g.parent == some k
      conditionNames := indicesOf kept fun g => g.host == some k }

theorem hides_prune (rules : Rules) {fields : List Field} (h : IsLinked fields) :
    Hides rules.config.fieldProcessing (prune rules.keepingAll fields) (prune rules fields) := by
  refine ⟨fun k f' => ?_⟩
  rw [getElem?_prune, renumbered_eq_image? rules h, image?_prune_keepingAll rules h]
  have hparent : ∀ {i : Nat} {f : Field}, fields[i]? = some f →
      keptParent fields (numbersOf rules fields) f =
        parentImage? rules.config.fieldProcessing (prune rules.keepingAll fields) f := by
    intro i f hf
    rw [keptParent, parentImage?, image?_prune_keepingAll rules h,
      parentOf_prune_keepingAll rules h, renumbered_eq_image? rules h]
    split
    · rename_i hc
      rw [((h i f hf).condition hc).1, Option.bind_none]
    · rfl
  constructor
  · rintro ⟨i, f, hf, hk, rfl⟩
    refine ⟨i, _, (getElem?_prune_keepingAll rules h i).trans (congrArg _ hf), hk, ?_⟩
    rw [relink, renumbered_eq_image? rules h, hparent hf]
    rfl
  · rintro ⟨i, f, hf, hk, rfl⟩
    rw [getElem?_prune_keepingAll rules h, Option.map_eq_some_iff] at hf
    obtain ⟨f, hf, rfl⟩ := hf
    refine ⟨i, f, hf, hk, ?_⟩
    rw [relink, renumbered_eq_image? rules h, hparent hf]
    rfl

/-- Dropping fields hides them and does nothing else.  The record has the fields that stay of the
record with all fields: those that are not dropped, and of condition names those whose field stays.
They keep their order and everything but their links, so that two of them may share bytes exactly if
they might before, and the record keeps its end and its findings. -/
theorem dropping_only_hides (rules : Rules) (lines : List Line) :
    let all := ofLines rules.keepingAll lines
    let kept := ofLines rules lines
    let image := image? rules.config.fieldProcessing all.fields
    Hides rules.config.fieldProcessing all.fields kept.fields ∧
      (∀ (i : Nat) (f : Field), all.fields[i]? = some f → ((image i).isSome = true ↔
        isDropped rules.config.fieldProcessing f = false ∧
          ∀ h ∈ f.host, (image h).isSome = true)) ∧
      (∀ i j k l : Nat, image i = some k → image j = some l → (k < l ↔ i < j)) ∧
      (∀ (i j k l : Nat) (f g f' g' : Field), image i = some k → image j = some l →
        all.fields[i]? = some f → all.fields[j]? = some g → kept.fields[k]? = some f' →
        kept.fields[l]? = some g' → f'.sharesStorageWith g' = f.sharesStorageWith g) ∧
      kept.recordEnd = all.recordEnd ∧ kept.diagnostics = all.diagnostics := by
  intro all kept image
  have hrun := run_keepingAll rules (Entry.ofLines rules.strategy.columns? lines)
  have hlinked := isLinked_assignOverlays (Walk.linked_run rules
    (Entry.ofLines rules.strategy.columns? lines)).links
  have hfields : all.fields = prune rules.keepingAll (assignOverlays (Walk.run rules
      (Entry.ofLines rules.strategy.columns? lines)).fields) := hrun ▸ rfl
  have hend : all.recordEnd = kept.recordEnd := congrArg (·.cursor - 1) hrun
  have hdiagnostics : all.diagnostics = kept.diagnostics := congrArg (·.diagnostics) hrun
  have hhides : Hides rules.config.fieldProcessing all.fields kept.fields :=
    hfields ▸ hides_prune rules hlinked
  have hall : IsLinked all.fields := hfields ▸ isLinked_prune hlinked
  refine ⟨hhides, fun i f => isSome_image?_iff hall, fun i j k l => image?_lt_iff, ?_, hend.symm,
    hdiagnostics.symm⟩
  · intro i j k l f g f' g' hi hj hf hg hf' hg'
    have hkept : ∀ {i k : Nat} {f f' : Field}, image i = some k → all.fields[i]? = some f →
        kept.fields[k]? = some f' → f'.overlays = f.overlays := by
      intro i k f f' hi hf hf'
      rw [(hhides.kept_iff k _).2 ⟨i, f, hf, hi, rfl⟩, Option.some.injEq] at hf'
      rw [← hf']
    rw [Field.sharesStorageWith, Field.sharesStorageWith, hkept hi hf hf', hkept hj hg hg']

/-- The item inside the filler is excluded, and its condition name goes with it; the redefinition of
it moves up to the record and keeps its bytes. -/
theorem dropping_only_hides_base :
    let lines := (Source.ofLines (["01 A.", "   05 FILLER.", "      10 B PIC X(2).",
      "         88 B-SET VALUE 'AB'.", "      10 C REDEFINES B PIC 9(2)."].map String.toList)).content
    ∃ rules : Rules,
      Rules.interpretWith .plain { fieldProcessing := { excludeFieldNames := ["b"] } } = .ok rules ∧
      Rules.interpretWith .plain rules.keepingAll.config = .ok rules.keepingAll ∧
      ((ofLines rules.keepingAll lines).fields.map fun f =>
        (f.name, f.parent, f.host, f.redefinesTarget, f.startPosition, f.endPosition)) =
        [("A", none, none, none, 1, 2), ("FILLER", some 0, none, none, 1, 2),
          ("B", some 1, none, none, 1, 2), ("B-SET", none, some 2, none, 1, 2),
          ("C", some 1, none, some 2, 1, 2)] ∧
      ((ofLines rules lines).fields.map fun f =>
        (f.name, f.parent, f.host, f.redefinesTarget, f.startPosition, f.endPosition)) =
        [("A", none, none, none, 1, 2), ("C", some 0, none, none, 1, 2)] ∧
      Hides rules.config.fieldProcessing (ofLines rules.keepingAll lines).fields
        (ofLines rules lines).fields := by
  intro lines
  have hrules : ∃ rules : Rules,
      Rules.interpretWith .plain { fieldProcessing := { excludeFieldNames := ["b"] } } = .ok rules ∧
      ((ofLines rules.keepingAll lines).fields.map fun f =>
        (f.name, f.parent, f.host, f.redefinesTarget, f.startPosition, f.endPosition)) =
        [("A", none, none, none, 1, 2), ("FILLER", some 0, none, none, 1, 2),
          ("B", some 1, none, none, 1, 2), ("B-SET", none, some 2, none, 1, 2),
          ("C", some 1, none, some 2, 1, 2)] ∧
      ((ofLines rules lines).fields.map fun f =>
        (f.name, f.parent, f.host, f.redefinesTarget, f.startPosition, f.endPosition)) =
        [("A", none, none, none, 1, 2), ("C", some 0, none, none, 1, 2)] :=
    ⟨.standard { fieldProcessing := { excludeFieldNames := ["b"] } } .undivided,
      Rules.interpret_eq_ok_iff.2 ⟨rfl, rfl, Rules.ofMapping_defaultUsages, rfl, by decide, rfl,
        rfl, rfl, rfl⟩, by decide +kernel, by decide +kernel⟩
  obtain ⟨rules, hi, hall, hkept⟩ := hrules
  exact ⟨rules, hi, Rules.interpret_keepingAll hi, hall, hkept, (dropping_only_hides rules lines).1⟩

end Record

end DataDivision
