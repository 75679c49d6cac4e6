import DataDivision.Proofs.Record.DataWalk
import DataDivision.Proofs.Rules.Defaults

/-!
Condition names and layouts.

Condition names do not matter for the layout of data items.  An entry that declares no condition
name does among the data items alone what it does among all fields (`data_addEntry`), and one that
declares a condition name does nothing there (`data_addEntry_condition`).  So whatever entries of
condition names are left out of a record, and whether the others are read or not, the record keeps
its data items, the links and the shared bytes among them, its end, and the findings about its other
entries (`condition_names_neutral`).
-/

namespace DataDivision

/-- The same rules, but for whether condition names are read. -/
def Rules.withConditions (rules : Rules) (read : Bool) : Rules :=
  { rules with config := { rules.config with fieldProcessing := { rules.config.fieldProcessing with
      processConditions := read } } }

/-- A configuration is interpreted alike whether condition names are read or not. -/
theorem Rules.interpret_withConditions {engine : Pattern.Engine} {config : Rules.Config}
    {rules : Rules} (h : Rules.interpretWith engine config = .ok rules) (read : Bool) :
    Rules.interpretWith engine (rules.withConditions read).config =
      .ok (rules.withConditions read) := by
  obtain ⟨hs, hl, hu, hn, hp, hg, hf, hstart, hc⟩ := Rules.interpret_eq_ok_iff.1 h
  subst hc
  exact Rules.interpret_eq_ok_iff.2 ⟨hs, hl, hu, hn, hp, hg, hf, hstart, rfl⟩

namespace Entry

def hasConditionLevel (e : Entry) : Bool := (Head.split? e.text).any (·.levelNumber == 88)

theorem kindOf_eq_condition_iff (level : Nat) (clauses : Clauses) :
    kindOf level clauses = .condition ↔ level = 88 := by
  unfold kindOf
  split
  · simp [*]
  · split <;> simp [*]

/-- Nothing but its level makes an entry declare a condition name. -/
theorem Head.kind_of_describe {head : Head} {span : Span} {d : Descriptor}
    (h : head.describe span = .ok d) : d.kind = .condition ↔ head.levelNumber = 88 := by
  cases hl : isLevel head.levelNumber with
  | false =>
    simp only [describe, hl, Bool.not_false, ↓reduceIte] at h
    cases h
  | true =>
    simp only [describe, hl, Bool.not_true, Bool.false_eq_true, ↓reduceIte] at h
    cases hr : ({} : Clauses).read (Token.split head.clauses) with
    | error e => cases e <;> rw [hr] at h <;> cases h
    | ok clauses =>
      rw [hr] at h
      cases hp : clauses.picture with
      | none =>
        simp only [pure_bind, hp] at h
        cases h
        exact kindOf_eq_condition_iff _ clauses
      | some text =>
        cases ha : Picture.analyze text with
        | error cause =>
          simp only [pure_bind, hp, ha] at h
          cases h
        | ok shape =>
          simp only [pure_bind, hp, ha] at h
          cases h
          exact kindOf_eq_condition_iff _ clauses

/-- An entry declares a condition name if and only if it has their level. -/
theorem kind_of_scan {e : Entry} {d : Descriptor} (h : scan e.text e.span = .ok (some d)) :
    d.kind = .condition ↔ e.hasConditionLevel = true := by
  unfold scan at h
  unfold hasConditionLevel
  cases hs : Head.split? e.text with
  | none => simp [hs] at h
  | some head =>
    simp only [hs] at h
    cases hd : head.describe e.span with
    | error r => simp [hd] at h
    | ok d' =>
      simp only [hd, Except.ok.injEq, Option.some.injEq] at h
      subst h
      rw [head.kind_of_describe hd, Option.any_some, beq_iff_eq]

end Entry

/-- The finding is that a condition name describes nothing. -/
def Diagnostic.isOrphan (d : Diagnostic) : Bool := d.code == some .orphanCondition

namespace Record

namespace Walk

section

variable {rules rules' : Rules} {w v : Walk} {entry : Entry}

theorem Rooted.quiet (h : w.Rooted) : w.quiet.Rooted :=
  ⟨h.linked.of_eq rfl rfl rfl, h.overlay_base, h.shared_base, h.condition_target⟩

theorem Nested.quiet (h : w.Nested) : w.quiet.Nested :=
  ⟨h.group_levels, h.overlay_levels, h.group_indices, h.grounded⟩

/-- Any other entry is read among the data items as among all fields. -/
theorem data_addEntry (hs : SameLayout rules rules') (h : w.Rooted) (hn : w.Nested)
    (hl : entry.hasConditionLevel = false) :
    (w.addEntry rules entry).data = w.data.addEntry rules' entry := by
  have hfield : ∀ d : Entry.Descriptor, d.kind ≠ .condition →
      (w.addField rules d entry).data = w.data.addField rules' d entry := by
    intro d hk
    have hroot := stepInvariant_rooted.closeScopes hn d.level h
    rw [addField_eq rules ⟨d, entry⟩, addField_eq rules' ⟨d, entry⟩, ← declare_congr hs,
      ← data_closeScopes hn, hroot.data_declare (hn.closeScopes _) rules hk]
  unfold addEntry
  cases hscan : Entry.scan entry.text entry.span with
  | error d => rfl
  | ok scanned =>
    cases scanned with
    | none => rfl
    | some d =>
      have hk : d.kind ≠ .condition := fun hk =>
        absurd ((Entry.kind_of_scan hscan).1 hk) (by simp [hl])
      dsimp only
      cases hd : d.kind with
      | condition => exact absurd hd hk
      | group => exact hfield d hk
      | elementary => exact hfield d hk

/-- A condition name changes nothing among the data items. -/
theorem data_addEntry_condition (rules : Rules) (h : w.InRange)
    (hl : entry.hasConditionLevel = true) :
    (w.addEntry rules entry).data.quiet = w.data.quiet := by
  unfold addEntry
  cases hscan : Entry.scan entry.text entry.span with
  | error d => rfl
  | ok scanned =>
    cases scanned with
    | none => rfl
    | some d =>
      have hk : d.kind = .condition := (Entry.kind_of_scan hscan).2 hl
      simp only [hk]
      obtain ha | ⟨e, -, ha⟩ | ⟨i, slot, -, -, ha⟩ := addCondition_cases rules d entry w
      · rw [ha]
      · rw [ha]
        rfl
      · rw [ha, h.data_push_condition (isCondition_conditionOf hk entry.line i slot)]

/-- What is found about a condition name, but that it describes nothing, is the same in all walks.
-/
theorem findingsOf_condition (rules rules' : Rules) (w v : Walk)
    (hl : entry.hasConditionLevel = true) :
    (w.findingsOf rules entry).filter (!·.isOrphan) =
      (v.findingsOf rules' entry).filter (!·.isOrphan) := by
  have hquiet : ∀ (rules : Rules) (u : Walk) (d : Entry.Descriptor),
      (u.quiet.addCondition rules d entry).diagnostics.filter (!·.isOrphan) = [] := by
    intro rules u d
    unfold addCondition
    split
    · rfl
    · split <;> rfl
  unfold findingsOf addEntry
  cases hscan : Entry.scan entry.text entry.span with
  | error d => rfl
  | ok scanned =>
    cases scanned with
    | none => rfl
    | some d =>
      simp only [(Entry.kind_of_scan hscan).2 hl, hquiet]

/-- The findings about any other entry can be made among the data items. -/
theorem findingsOf_data (hs : SameLayout rules rules') (h : w.Rooted) (hn : w.Nested)
    (hl : entry.hasConditionLevel = false) :
    w.findingsOf rules entry = w.data.findingsOf rules' entry := by
  have hdata : w.quiet.data = w.data.quiet := rfl
  have hadd := congrArg diagnostics (data_addEntry hs h.quiet hn.quiet hl)
  rw [hdata] at hadd
  exact hadd

end

/-! ## Walks -/

/-- Two walks that have come equally far among the data items. -/
structure SameItems (w v : Walk) : Prop where
  left_rooted : w.Rooted
  left_nested : w.Nested
  right_rooted : v.Rooted
  right_nested : v.Nested
  items_eq : w.data.quiet = v.data.quiet

namespace SameItems

variable {rules rules' : Rules} {w v : Walk} {entry : Entry}

theorem addEntry (h : SameItems w v) (hs : SameLayout rules rules') (entry : Entry) :
    SameItems (w.addEntry rules entry) (v.addEntry rules' entry) ∧
      (w.findingsOf rules entry).filter (!·.isOrphan) =
        (v.findingsOf rules' entry).filter (!·.isOrphan) := by
  have hquiet : ∀ (u : Walk), (u.addEntry rules' entry).quiet =
      (u.quiet.addEntry rules' entry).quiet := by
    intro u
    rw [addEntry_quiet]
    rfl
  refine ⟨⟨stepInvariant_rooted.addEntry h.left_nested rules entry h.left_rooted,
    h.left_nested.addEntry rules entry,
    stepInvariant_rooted.addEntry h.right_nested rules' entry h.right_rooted,
    h.right_nested.addEntry rules' entry, ?_⟩, ?_⟩
  · cases hl : entry.hasConditionLevel with
    | true =>
      rw [data_addEntry_condition rules (h.left_rooted.inRange h.left_nested) hl,
        data_addEntry_condition rules' (h.right_rooted.inRange h.right_nested) hl, h.items_eq]
    | false =>
      rw [data_addEntry hs h.left_rooted h.left_nested hl,
        data_addEntry ⟨rfl, rfl, rfl, rfl⟩ h.right_rooted h.right_nested hl, hquiet, h.items_eq,
        ← hquiet]
  · cases hl : entry.hasConditionLevel with
    | true => exact findingsOf_condition rules rules' w v hl
    | false =>
      rw [findingsOf_data hs h.left_rooted h.left_nested hl,
        findingsOf_data ⟨rfl, rfl, rfl, rfl⟩ h.right_rooted h.right_nested hl, findingsOf,
        h.items_eq]
      rfl

/-- A condition name that only one walk reads. -/
theorem addEntry_left (h : SameItems w v) (rules : Rules) (hl : entry.hasConditionLevel = true) :
    SameItems (w.addEntry rules entry) v :=
  ⟨stepInvariant_rooted.addEntry h.left_nested rules entry h.left_rooted,
    h.left_nested.addEntry rules entry, h.right_rooted, h.right_nested,
    (data_addEntry_condition rules (h.left_rooted.inRange h.left_nested) hl).trans h.items_eq⟩

theorem closeScopes (h : SameItems w v) (level : Nat) :
    (w.closeScopes level).data.quiet = (v.closeScopes level).data.quiet ∧
      (w.quiet.closeScopes level).diagnostics = (v.quiet.closeScopes level).diagnostics := by
  have hquiet : ∀ (u : Walk), (u.closeScopes level).quiet = (u.quiet.closeScopes level).quiet := by
    intro u
    conv => lhs; rw [← after_quiet u]
    rw [closeScopes_after]
    rfl
  constructor
  · rw [data_closeScopes h.left_nested, data_closeScopes h.right_nested, hquiet, h.items_eq,
      ← hquiet]
  · have hw := congrArg diagnostics (data_closeScopes h.left_nested.quiet level)
    have hv := congrArg diagnostics (data_closeScopes h.right_nested.quiet level)
    have hitems : w.quiet.data = v.quiet.data := h.items_eq
    exact hw.trans ((congrArg (fun u : Walk => (u.closeScopes level).diagnostics) hitems).trans
      hv.symm)

end SameItems

theorem sameItems_start {rules rules' : Rules} (hs : SameLayout rules rules') :
    SameItems (start rules) (start rules') :=
  ⟨rooted_start rules, .start rules, rooted_start rules', .start rules',
    congrArg (fun u : Walk => u.data.quiet) hs.start_eq⟩

end Walk

/-! ## Leaving out condition names -/

/-- Entries of which some, the marked ones, are left out. -/
def kept (entries : List (Entry × Bool)) : List Entry :=
  (entries.filter fun x => !x.2).map (·.1)

/-- The findings about the entries that are not left out. -/
def keptFindings (entries : List (Entry × Bool)) (findings : List (List Diagnostic)) :
    List Diagnostic :=
  ((entries.zip findings).filter fun x => !x.1.2).flatMap (·.2)

namespace Walk

/-- Entries come equally far among the data items without those of condition names. -/
theorem SameItems.foldl {rules rules' : Rules} {w v : Walk} (h : SameItems w v)
    (hs : SameLayout rules rules') {entries : List (Entry × Bool)}
    (hc : ∀ x ∈ entries, x.2 = true → x.1.hasConditionLevel = true) :
    SameItems ((entries.map (·.1)).foldl (Walk.addEntry rules) w)
        ((kept entries).foldl (Walk.addEntry rules') v) ∧
      (v.findingsBy rules' (kept entries)).flatten.filter (!·.isOrphan) =
        (keptFindings entries (w.findingsBy rules (entries.map (·.1)))).filter (!·.isOrphan) := by
  induction entries generalizing w v with
  | nil => exact ⟨h, rfl⟩
  | cons x rest ih =>
    obtain ⟨entry, out⟩ := x
    have hrest := fun y hy => hc y (List.mem_cons_of_mem _ hy)
    cases out with
    | true =>
      exact ih (h.addEntry_left rules (hc _ List.mem_cons_self rfl)) hrest
    | false =>
      obtain ⟨hadd, hfound⟩ := h.addEntry hs entry
      obtain ⟨hfold, hby⟩ := ih hadd hrest
      refine ⟨hfold, ?_⟩
      have hleft : kept ((entry, false) :: rest) = entry :: kept rest := rfl
      have hright : ∀ ds more, keptFindings ((entry, false) :: rest) (ds :: more) =
          ds ++ keptFindings rest more := fun _ _ => rfl
      rw [hleft, List.map_cons, findingsBy, findingsBy, hright, List.flatten_cons,
        List.filter_append, List.filter_append, hby, hfound]

end Walk

/-! ## Shared bytes -/

section

variable {fields : List Field} {s : Nat → Nat}

/-- Both indices of the overlay are those of data items. -/
def IsItemOverlay (fields : List Field) (slot : OverlaySlot) : Prop :=
  HasData fields slot.base ∧ HasData fields slot.alternative

theorem isAlternativeOf_relabel {x y : OverlaySlot} (hx : IsItemOverlay fields x)
    (hy : IsItemOverlay fields y) : (x.relabel (dataRank fields)).isAlternativeOf
      (y.relabel (dataRank fields)) = x.isAlternativeOf y := by
  have hbase : dataRank fields x.base = dataRank fields y.base ↔ x.base = y.base :=
    ⟨dataRank_injective hx.1 hy.1, congrArg _⟩
  have halternative : dataRank fields x.alternative = dataRank fields y.alternative ↔
      x.alternative = y.alternative := ⟨dataRank_injective hx.2 hy.2, congrArg _⟩
  rw [Bool.eq_iff_iff]
  simp [OverlaySlot.isAlternativeOf, OverlaySlot.relabel, hbase, halternative]

/-- Which fields may share bytes is kept when their overlays are renumbered. -/
theorem sharesStorageWith_relabel {f g f' g' : Field}
    (hf : ∀ x ∈ f.overlays, IsItemOverlay fields x) (hg : ∀ y ∈ g.overlays, IsItemOverlay fields y)
    (hf' : f'.overlays = f.overlays.map (OverlaySlot.relabel (dataRank fields)))
    (hg' : g'.overlays = g.overlays.map (OverlaySlot.relabel (dataRank fields))) :
    f'.sharesStorageWith g' = f.sharesStorageWith g := by
  rw [Field.sharesStorageWith, Field.sharesStorageWith, hf', hg', Bool.eq_iff_iff]
  simp only [List.any_map, List.any_eq_true, Function.comp_apply]
  constructor
  · rintro ⟨x, hx, y, hy, h⟩
    exact ⟨x, hx, y, hy, isAlternativeOf_relabel (hf x hx) (hg y hy) ▸ h⟩
  · rintro ⟨x, hx, y, hy, h⟩
    exact ⟨x, hx, y, hy, (isAlternativeOf_relabel (hf x hx) (hg y hy)).trans h⟩

theorem isItemOverlay_of_mem (h : IsLinked fields) {i : Nat} (hi : HasData fields i)
    {x : OverlaySlot} (hx : x ∈ overlaysOf fields (basesOf fields) i) : IsItemOverlay fields x := by
  obtain ⟨j, hj, hslot⟩ := List.mem_filterMap.1 hx
  have hdata := h.hasData_of_mem_chain hi hj
  unfold slotOf? at hslot
  dsimp only at hslot
  split at hslot
  · obtain rfl := Option.some.inj hslot
    exact ⟨h.hasData_baseOf hdata, hdata⟩
  · cases hslot

/-- The overlays of the data items in a record lead to data items. -/
theorem isItemOverlay_prune (rules : Rules) (h : IsLinked fields) {f : Field}
    (hf : f ∈ prune rules (assignOverlays fields)) (hd : f.isData = true) :
    ∀ x ∈ f.overlays, IsItemOverlay fields x := by
  obtain ⟨k, hk⟩ := List.mem_iff_getElem?.1 hf
  obtain ⟨i, g, hi, -, rfl⟩ := getElem?_prune.1 hk
  rw [getElem?_assignOverlays, Option.map_eq_some_iff] at hi
  obtain ⟨g, hg, rfl⟩ := hi
  exact fun x hx => isItemOverlay_of_mem h ⟨g, hg, hd⟩ hx

end

/-! ## Data items of a record -/

/-- The data items of a record, linked by their indices among themselves, and without their
overlays. -/
def itemsOf (fields : List Field) : List Field :=
  (fields.filter Field.isData).map fun f => { f with
    parent := f.parent.map (dataRank fields)
    redefinesTarget := f.redefinesTarget.map (dataRank fields)
    children := f.children.map (dataRank fields)
    conditionNames := []
    overlays := [] }

/-- Which of some fields may share bytes with which. -/
def sharing (fields : List Field) : List (List Bool) :=
  fields.map fun f => fields.map f.sharesStorageWith

theorem itemsOf_eq (s : Nat → Nat) (fields : List Field) :
    itemsOf fields = (linkedData s fields).map fun f => { f with overlays := [] } := by
  rw [linkedData, List.map_map]
  rfl

theorem sharing_linkedData {fields fields' : List Field} (h : ∀ f ∈ fields, f.isData = true →
      ∀ x ∈ f.overlays, IsItemOverlay fields' x) :
    sharing (linkedData (dataRank fields') fields) = sharing (fields.filter Field.isData) := by
  rw [sharing, linkedData, List.map_map, sharing]
  refine List.map_congr_left fun f hf => ?_
  rw [Function.comp_apply, List.map_map]
  refine List.map_congr_left fun g hg => ?_
  obtain ⟨hf, hfd⟩ := List.mem_filter.1 hf
  obtain ⟨hg, hgd⟩ := List.mem_filter.1 hg
  exact sharesStorageWith_relabel (h f hf hfd) (h g hg hgd) rfl rfl

/-- The data items of a record are laid out by the walk over the data items. -/
theorem linkedData_ofWalk (rules : Rules) {w : Walk} (h : w.Rooted) :
    linkedData (dataRank w.fields) (ofWalk rules w).fields =
        prune rules (assignOverlays w.data.fields) ∧
      sharing ((ofWalk rules w).fields.filter Field.isData) =
        sharing (prune rules (assignOverlays w.data.fields)) := by
  have honly : OnlyDataRedefines w.fields := by
    intro f hf hc
    obtain ⟨slot, hs, rfl⟩ := List.mem_map.1 hf
    exact h.condition_target slot hs hc
  have hlinked := linkedData_prune rules (dataRank w.fields) (isLinked_assignOverlays h.linked.links)
  rw [dataFields_assignOverlays id h.linked.links honly, ← Walk.fields_data] at hlinked
  refine ⟨hlinked, ?_⟩
  rw [← hlinked]
  exact (sharing_linkedData fun f hf hd =>
    isItemOverlay_prune rules h.linked.links hf hd).symm

theorem prune_withConditions (rules : Rules) (read : Bool) (fields : List Field) :
    prune (rules.withConditions read) fields = prune rules fields := rfl

/-- Condition names are neutral.  Whatever entries of their level are left out of a record, and
whether the others are read or not, the record keeps its data items and all links among them, it is
kept which of them may share bytes, and it keeps its end and, apart from condition names that
describe nothing, the findings about all entries that are not left out. -/
theorem condition_names_neutral (rules : Rules) (read : Bool) (entries : List (Entry × Bool))
    (h : ∀ x ∈ entries, x.2 = true → x.1.hasConditionLevel = true) :
    let whole := ofEntries rules (entries.map (·.1))
    let fewer := ofEntries (rules.withConditions read) (kept entries)
    let findings := (Walk.start rules).findingsBy rules (entries.map (·.1))
    let closing := Walk.closingFindings rules (entries.map (·.1))
    itemsOf fewer.fields = itemsOf whole.fields ∧
      sharing (fewer.fields.filter Field.isData) = sharing (whole.fields.filter Field.isData) ∧
      fewer.recordEnd = whole.recordEnd ∧
      whole.diagnostics = findings.flatten ++ closing ∧
      fewer.diagnostics.filter (!·.isOrphan) =
        (keptFindings entries findings ++ closing).filter (!·.isOrphan) := by
  intro whole fewer findings closing
  have hs : Walk.SameLayout rules (rules.withConditions read) := ⟨rfl, rfl, rfl, rfl⟩
  obtain ⟨hsame, hfound⟩ := (Walk.sameItems_start hs).foldl hs h
  obtain ⟨hdata, hclosing⟩ := hsame.closeScopes 0
  have hfields : (Walk.run (rules.withConditions read) (kept entries)).data.fields =
      (Walk.run rules (entries.map (·.1))).data.fields := (congrArg Walk.fields hdata).symm
  obtain ⟨hwhole, hwholeSharing⟩ := linkedData_ofWalk rules
    (Walk.stepInvariant_rooted.closeScopes hsame.left_nested 0 hsame.left_rooted)
  obtain ⟨hfewer, hfewerSharing⟩ := linkedData_ofWalk (rules.withConditions read)
    (Walk.stepInvariant_rooted.closeScopes hsame.right_nested 0 hsame.right_rooted)
  rw [prune_withConditions] at hfewer hfewerSharing
  have hlaid : prune rules (assignOverlays
        (Walk.run (rules.withConditions read) (kept entries)).data.fields) =
      prune rules (assignOverlays (Walk.run rules (entries.map (·.1))).data.fields) := by
    rw [hfields]
  have hlinked := (hfewer.trans hlaid).trans hwhole.symm
  refine ⟨?_, ?_, ?_, Walk.diagnostics_run rules _, ?_⟩
  · exact (itemsOf_eq _ _).trans ((congrArg (List.map _) hlinked).trans (itemsOf_eq _ _).symm)
  · exact (hfewerSharing.trans (congrArg sharing hlaid)).trans hwholeSharing.symm
  · have hcursor : (Walk.run (rules.withConditions read) (kept entries)).cursor =
        (Walk.run rules (entries.map (·.1))).cursor := (congrArg Walk.cursor hdata).symm
    exact congrArg (· - 1) hcursor
  · have hrun : fewer.diagnostics = _ := Walk.diagnostics_run (rules.withConditions read) _
    rw [hrun, List.filter_append, List.filter_append, hfound]
    exact congrArg (_ ++ List.filter _ ·) hclosing.symm

/-- Of the three condition names two are left out, among them one that describes nothing, and the
third is not read. -/
theorem condition_names_neutral_redefined :
    let lines := (Source.ofLines (["01 A.", "   88 LOST VALUE 'X'.", "   05 B PIC X(2).",
      "      88 B-SET VALUE 'AB'.", "   05 C REDEFINES B PIC 9(2).", "      88 C-SET VALUE 10.",
      "   05 D PIC X USAGE ODD."].map String.toList)).content
    let entries := (Entry.ofLines none lines).zip [false, true, false, true, false, false, false]
    let rules := Rules.standard {} .undivided
    let whole := ofEntries rules (entries.map (·.1))
    let fewer := ofEntries (rules.withConditions false) (kept entries)
    Rules.interpretWith .plain (rules.withConditions false).config =
        .ok (rules.withConditions false) ∧
      (∀ x ∈ entries, x.2 = true → x.1.hasConditionLevel = true) ∧
      whole.fields.map (fun f => (f.name, f.startPosition, f.host, f.redefinesTarget)) =
        [("A", 1, none, none), ("B", 1, none, none), ("B-SET", 1, some 1, none),
          ("C", 1, none, some 1), ("C-SET", 1, some 3, none), ("D", 3, none, none)] ∧
      fewer.fields.map (fun f => (f.name, f.startPosition, f.host, f.redefinesTarget)) =
        [("A", 1, none, none), ("B", 1, none, none), ("C", 1, none, some 1),
          ("D", 3, none, none)] ∧
      whole.diagnostics.map (·.code) = [some .orphanCondition, some .unknownUsage] ∧
      fewer.diagnostics.map (·.code) = [some .unknownUsage] ∧
      itemsOf fewer.fields = itemsOf whole.fields := by
  intro lines entries rules whole fewer
  have hleft : ∀ x ∈ entries, x.2 = true → x.1.hasConditionLevel = true := by decide +kernel
  exact ⟨Rules.interpret_withConditions Rules.interpret_default false, hleft, by decide +kernel,
    by decide +kernel, by decide +kernel, by decide +kernel,
    (condition_names_neutral rules false entries hleft).1⟩

end Record

end DataDivision
