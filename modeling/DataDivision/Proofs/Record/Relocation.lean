import DataDivision.Proofs.Entry.Joining
import DataDivision.Proofs.Record.Conditions
import DataDivision.Proofs.Record.Lines

/-!
Entries elsewhere in a source.

Two walks over entries that are read alike, as entries with the same texts are, go the same way,
wherever in a source the entries stand: lines and spans reach the line numbers of fields and the
findings and nothing else (`Walk.Alike`).  Every step keeps this, so the two records are equal but
for those (`fields_ofLines_congr`).
-/

namespace DataDivision

namespace Entry

/-- What an entry declares does not depend on its span. -/
theorem Head.describe_span (head : Head) (span span' : Span) :
    head.describe span' = (head.describe span).map fun d => { d with span := span' } := by
  cases hl : isLevel head.levelNumber with
  | false => simp only [describe, hl, Bool.not_false, ↓reduceIte]; rfl
  | true =>
    simp only [describe, hl, Bool.not_true, Bool.false_eq_true, ↓reduceIte]
    cases ({} : Clauses).read (Token.split head.clauses) with
    | error e => cases e <;> rfl
    | ok clauses =>
      cases hp : clauses.picture with
      | none => simp only [pure_bind, hp]; rfl
      | some text =>
        cases ha : Picture.analyze text <;> simp only [pure_bind, hp, ha] <;> rfl

/-- The same text is rejected, passed over, or declares the same, whatever its span. -/
theorem scan_cases (text : List Char) (span span' : Span) :
    (∃ d d', scan text span = .error d ∧ scan text span' = .error d') ∨
    (scan text span = .ok none ∧ scan text span' = .ok none) ∨
    ∃ d, scan text span = .ok (some d) ∧ scan text span' = .ok (some { d with span := span' }) := by
  unfold scan
  cases Head.split? text with
  | none => exact .inr (.inl ⟨rfl, rfl⟩)
  | some head =>
    dsimp only
    rw [head.describe_span span span']
    cases head.describe span with
    | error r => exact .inl ⟨_, _, rfl, rfl⟩
    | ok d => exact .inr (.inr ⟨d, rfl, rfl⟩)

end Entry

namespace Record

/-- What later entries may see of a slot. -/
def Slot.view (slot : Slot) : Field × Nat := (slot.field.withoutLine, slot.limit)

theorem Slot.eqs_of_view {s t : Slot} (h : s.view = t.view) :
    s.limit = t.limit ∧ s.field.startPosition = t.field.startPosition ∧
      s.field.endPosition = t.field.endPosition ∧ s.field.occurs = t.field.occurs := by
  have hf : s.field.withoutLine = t.field.withoutLine := congrArg Prod.fst h
  exact ⟨congrArg Prod.snd h, (congrArg Field.startPosition hf :),
    (congrArg Field.endPosition hf :), (congrArg Field.occurs hf :)⟩

/-- What later entries may see of an open group. -/
def OpenGroup.view (group : OpenGroup) : Nat × Nat × Option String :=
  (group.index, group.level, group.usage)

namespace Walk

/-- Two walks differ in lines, spans and findings at most. -/
structure Alike (w v : Walk) : Prop where
  slots_eq : w.slots.map Slot.view = v.slots.map Slot.view
  groups_eq : w.groups.map OpenGroup.view = v.groups.map OpenGroup.view
  overlays_eq : w.overlays = v.overlays
  shared_eq : w.shared = v.shared
  last_eq : w.lastElementary = v.lastElementary
  cursor_eq : w.cursor = v.cursor

namespace Alike

variable {w v w' v' : Walk}

theorem refl (w : Walk) : Alike w w := ⟨rfl, rfl, rfl, rfl, rfl, rfl⟩

theorem symm (h : Alike w v) : Alike v w :=
  ⟨h.slots_eq.symm, h.groups_eq.symm, h.overlays_eq.symm, h.shared_eq.symm, h.last_eq.symm,
    h.cursor_eq.symm⟩

/-- Findings make no difference. -/
theorem of_agrees (h : Alike w v) (hw : Agrees w' w) (hv : Agrees v' v) : Alike w' v' :=
  ⟨by rw [hw.slots_eq, hv.slots_eq, h.slots_eq], by rw [hw.groups_eq, hv.groups_eq, h.groups_eq],
    by rw [hw.overlays_eq, hv.overlays_eq, h.overlays_eq],
    by rw [hw.shared_eq, hv.shared_eq, h.shared_eq], by rw [hw.last_eq, hv.last_eq, h.last_eq],
    by rw [hw.cursor_eq, hv.cursor_eq, h.cursor_eq]⟩

theorem view_getElem? (h : Alike w v) (i : Nat) :
    w.slots[i]?.map Slot.view = v.slots[i]?.map Slot.view := by
  rw [← List.getElem?_map, ← List.getElem?_map, h.slots_eq]

theorem slot (h : Alike w v) {i : Nat} {s : Slot} (hi : w.slots[i]? = some s) :
    ∃ t, v.slots[i]? = some t ∧ s.view = t.view := by
  have hview := h.view_getElem? i
  rw [hi, Option.map_some, eq_comm, Option.map_eq_some_iff] at hview
  obtain ⟨t, ht, he⟩ := hview
  exact ⟨t, ht, he.symm⟩

theorem slot_none (h : Alike w v) {i : Nat} (hi : w.slots[i]? = none) : v.slots[i]? = none := by
  have hview := h.view_getElem? i
  rwa [hi, Option.map_none, eq_comm, Option.map_eq_none_iff] at hview

theorem head_eq (h : Alike w v) :
    w.groups.head?.map OpenGroup.view = v.groups.head?.map OpenGroup.view := by
  rw [← List.head?_map, ← List.head?_map, h.groups_eq]

theorem length_eq (h : Alike w v) : w.slots.length = v.slots.length := by
  simpa using congrArg List.length h.slots_eq

theorem fields_eq (h : Alike w v) :
    w.fields.map Field.withoutLine = v.fields.map Field.withoutLine := by
  have hview := congrArg (List.map Prod.fst) h.slots_eq
  simp only [List.map_map] at hview
  simp only [fields, List.map_map]
  exact hview

theorem push (h : Alike w v) {f g : Field} (hf : f.withoutLine = g.withoutLine)
    (span span' : Span) : Alike (w.push f span) (v.push g span') := by
  refine ⟨?_, h.groups_eq, h.overlays_eq, h.shared_eq, h.last_eq, h.cursor_eq⟩
  simp only [slots_push, List.map_append, h.slots_eq, List.map_singleton, Slot.view, hf,
    h.cursor_eq]

/-- A position is bounded alike. -/
theorem bound (h : Alike w v) (next : Option Nat) (name name' : String) (span span' : Span) :
    (w.bound next name span).1 = (v.bound next name' span').1 ∧
      Alike (w.bound next name span).2 (v.bound next name' span').2 := by
  refine ⟨?_, h.of_agrees (.bound w next name span) (.bound v next name' span')⟩
  unfold Walk.bound
  cases next.filter (· ≤ Storage.maxRecordLength + 1) <;> rfl

/-! ## Closing -/

theorem finishGroup (h : Alike w v) (index next : Nat) {s t : Slot} {outer outer' : List OpenGroup}
    (hs : s.view = t.view) (ho : outer.map OpenGroup.view = outer'.map OpenGroup.view) :
    Alike (w.finishGroup index s next outer) (v.finishGroup index t next outer') := by
  have hclosed : (s.closed next).view = (t.closed next).view := by
    have hf : s.field.withoutLine = t.field.withoutLine := congrArg Prod.fst hs
    have hstart := (Slot.eqs_of_view hs).2.1
    have hset : ∀ (f : Field) (first last : Nat),
        (f.setExtent first last).withoutLine = f.withoutLine.setExtent first last :=
      fun _ _ _ => rfl
    simp only [Slot.view, Slot.closed, hset, hf, hstart]
  refine ⟨?_, ho, h.overlays_eq, h.shared_eq, h.last_eq, ?_⟩
  · simp only [Walk.finishGroup, List.map_set, h.slots_eq, hclosed]
  · simp only [Walk.finishGroup, h.cursor_eq]

theorem closeOverlay (h : Alike w v) (overlay : OpenOverlay) (outer : List OpenOverlay) :
    Alike (w.closeOverlay overlay outer) (v.closeOverlay overlay outer) := by
  refine ⟨h.slots_eq, h.groups_eq, rfl, ?_, h.last_eq, ?_⟩
  · simp only [Walk.closeOverlay, h.shared_eq, h.cursor_eq]
  · simp only [Walk.closeOverlay, h.cursor_eq]

theorem closeGroup (h : Alike w v) {g g' : OpenGroup} {outer outer' : List OpenGroup}
    (hg : g.view = g'.view) (ho : outer.map OpenGroup.view = outer'.map OpenGroup.view) :
    Alike (w.closeGroup g outer) (v.closeGroup g' outer') := by
  have hindex : g.index = g'.index := congrArg Prod.fst hg
  cases hi : w.slots[g.index]? with
  | none =>
    have hi' : v.slots[g'.index]? = none := hindex ▸ h.slot_none hi
    simp only [Walk.closeGroup, hi, hi']
    exact ⟨h.slots_eq, ho, h.overlays_eq, h.shared_eq, h.last_eq, h.cursor_eq⟩
  | some s =>
    obtain ⟨t, ht, hview⟩ := h.slot hi
    obtain ⟨-, hstart, -, hoccurs⟩ := Slot.eqs_of_view hview
    rw [hindex] at ht
    have hbehind : w.behindGroup? s = v.behindGroup? t := by
      simp only [behindGroup?, h.cursor_eq, hstart, hoccurs]
    rw [closeGroup_of_some outer hi, closeGroup_of_some outer' ht, hbehind]
    obtain ⟨hnext, hb⟩ := h.bound (v.behindGroup? t) s.field.name t.field.name g.span g'.span
    dsimp only
    rw [hnext, hindex]
    exact hb.finishGroup _ _ hview ho

/-- Both walks close the same scope next. -/
theorem close (h : Alike w v) {level : Nat} {s : Scope}
    (hs : nextScope? level w.groups w.overlays = some s) :
    ∃ t, nextScope? level v.groups v.overlays = some t ∧ Alike (w.close s) (v.close t) := by
  cases s with
  | overlay overlay outer =>
    obtain ⟨ho, hl, hg⟩ := nextScope?_eq_overlay_iff.1 hs
    refine ⟨.overlay overlay outer, nextScope?_eq_overlay_iff.2 ⟨h.overlays_eq ▸ ho, hl, ?_⟩,
      h.closeOverlay overlay outer⟩
    intro g' hg'
    have hhead := h.head_eq
    rw [hg', Option.map_some, Option.map_eq_some_iff] at hhead
    obtain ⟨g, hgm, he⟩ := hhead
    have hlevel : g.level = g'.level := congrArg (·.2.1) he
    exact hlevel ▸ hg g hgm
  | group g outer =>
    obtain ⟨hg, hl, hv⟩ := nextScope?_eq_group_iff.1 hs
    have hgroups := h.groups_eq
    rw [hg, List.map_cons, eq_comm, List.map_eq_cons_iff] at hgroups
    obtain ⟨g', outer', hg', he, ho⟩ := hgroups
    have hlevel : g'.level = g.level := congrArg (·.2.1) he
    refine ⟨.group g' outer', nextScope?_eq_group_iff.2 ⟨hg', hlevel ▸ hl, ?_⟩,
      h.closeGroup he.symm ho.symm⟩
    rw [← h.overlays_eq, hlevel]
    exact hv

theorem closeScopes (h : Alike w v) (level : Nat) :
    Alike (w.closeScopes level) (v.closeScopes level) := by
  induction hd : w.depth using Nat.strongRecOn generalizing w v with
  | _ n ih =>
    cases hs : nextScope? level w.groups w.overlays with
    | none =>
      have hv : nextScope? level v.groups v.overlays = none := by
        cases ht : nextScope? level v.groups v.overlays with
        | none => rfl
        | some t =>
          obtain ⟨s, hs', -⟩ := h.symm.close ht
          rw [hs] at hs'
          cases hs'
      rwa [closeScopes_of_none hs, closeScopes_of_none hv]
    | some s =>
      obtain ⟨t, ht, hc⟩ := h.close hs
      rw [closeScopes_of_some hs, closeScopes_of_some ht]
      have hlt : (w.close s).depth < w.depth :=
        depth_closeScope? (by rw [closeScope?_eq, hs]; rfl)
      exact ih _ (hd ▸ hlt) hc rfl

/-! ## Declaring -/

theorem ofDescriptor_withoutLine (d : Entry.Descriptor) (other : Span) (line line' : Nat) :
    (Field.ofDescriptor d line).withoutLine =
      (Field.ofDescriptor { d with span := other } line').withoutLine := by
  unfold Field.ofDescriptor
  cases d.shape <;> rfl

/-- A name refers to the same field. -/
theorem target?_eq (h : Alike w v) (name : String) : w.target? name = v.target? name := by
  rw [Record.target?_eq, Record.target?_eq, ← latestNamed_withoutLine, h.fields_eq,
    latestNamed_withoutLine]

theorem baseOf_eq (h : Alike w v) (i : Nat) : baseOf w.fields i = baseOf v.fields i := by
  rw [← baseOf_withoutLine, h.fields_eq, baseOf_withoutLine]

theorem enterOverlay (h : Alike w v) (level base : Nat) {s t b c : Slot} (hs : s.view = t.view)
    (hb : b.view = c.view) :
    Alike (w.enterOverlay level base s b) (v.enterOverlay level base t c) := by
  obtain ⟨hlimit, -⟩ := Slot.eqs_of_view hs
  obtain ⟨hbase, hstart, -⟩ := Slot.eqs_of_view hb
  refine ⟨h.slots_eq, h.groups_eq, ?_, h.shared_eq, h.last_eq, hstart⟩
  simp only [Walk.enterOverlay, h.overlays_eq, h.shared_eq, h.cursor_eq, hlimit, hbase]

/-- A redefinition goes back to the same storage. -/
theorem redefine (h : Alike w v) (rules : Rules) (d d' : Entry.Descriptor)
    (hlevel : d'.level = d.level) (hname : d'.redefines = d.redefines) (span span' : Span) :
    (w.redefine rules d span).1 = (v.redefine rules d' span').1 ∧
      Alike (w.redefine rules d span).2 (v.redefine rules d' span').2 := by
  cases hd : d.redefines with
  | none =>
    simp only [Walk.redefine, hname, hd]
    exact ⟨trivial, h⟩
  | some name =>
    rw [hd] at hname
    cases hr : rules.config.fieldProcessing.processRedefines with
    | false =>
      simp only [Walk.redefine, hname, hd, hr, Bool.false_eq_true, ↓reduceIte]
      exact ⟨trivial, h⟩
    | true =>
      have heq := h.target?_eq name
      cases ht : w.target? name with
      | none =>
        rw [ht] at heq
        simp only [Walk.redefine, hname, hd, hr, ↓reduceIte, openOverlay, ht, ← heq]
        exact ⟨trivial, h.of_agrees (.report w _) (.report v _)⟩
      | some i =>
        rw [ht] at heq
        have hi : i < w.slots.length := target?_lt ht
        have hb : baseOf w.fields i < w.slots.length := Nat.lt_of_le_of_lt (baseOf_le _ _) hi
        obtain ⟨t, hi', hview⟩ := h.slot (List.getElem?_eq_getElem hi)
        obtain ⟨c, hb', hbase⟩ := h.slot (List.getElem?_eq_getElem hb)
        obtain ⟨u, hu, he⟩ := redefine_of_target span hr hd ht (List.getElem?_eq_getElem hi)
          (List.getElem?_eq_getElem hb)
        rw [h.baseOf_eq] at hb'
        obtain ⟨u', hu', he'⟩ := redefine_of_target span' hr hname heq.symm hi' hb'
        rw [he, he', ← h.baseOf_eq, hlevel]
        exact ⟨rfl,
          (h.of_agrees (.of_reported hu) (.of_reported hu')).enterOverlay _ _ hview hbase⟩

theorem addGroup (h : Alike w v) (d : Entry.Descriptor) (other : Span) (e e' : Entry) {f g : Field}
    (hf : f.withoutLine = g.withoutLine) (usage : Option String) :
    Alike (w.addGroup d e f usage) (v.addGroup { d with span := other } e' g usage) := by
  have hset : (f.setExtent w.cursor w.cursor).withoutLine =
      (g.setExtent v.cursor v.cursor).withoutLine := by
    rw [h.cursor_eq]
    exact congrArg (Field.setExtent · v.cursor v.cursor) hf
  have hp := h.push hset e.span e'.span
  refine ⟨hp.slots_eq, ?_, hp.overlays_eq, hp.shared_eq, hp.last_eq, hp.cursor_eq⟩
  simp only [Walk.addGroup, List.map_cons, h.groups_eq, h.length_eq, OpenGroup.view]

theorem finishElementary (h : Alike w v) {f g : Field} (hf : f.withoutLine = g.withoutLine)
    (span span' : Span) (next : Nat) :
    Alike (w.finishElementary f span next) (v.finishElementary g span' next) := by
  have hplace : (f.place w.cursor (next - w.cursor)).withoutLine =
      (g.place v.cursor (next - v.cursor)).withoutLine := by
    rw [h.cursor_eq]
    exact congrArg (Field.place · v.cursor (next - v.cursor)) hf
  have hc : Alike { w with cursor := max w.cursor next } { v with cursor := max v.cursor next } :=
    ⟨h.slots_eq, h.groups_eq, h.overlays_eq, h.shared_eq, h.last_eq, by rw [h.cursor_eq]⟩
  have hp := hc.push hplace span span'
  exact ⟨hp.slots_eq, hp.groups_eq, hp.overlays_eq, hp.shared_eq, congrArg some h.length_eq,
    hp.cursor_eq⟩

theorem addElementary (h : Alike w v) (rules : Rules) (d : Entry.Descriptor) (other : Span)
    (e e' : Entry) {f g : Field} (hf : f.withoutLine = g.withoutLine) (usage : Option String) :
    Alike (w.addElementary rules d e f usage)
      (v.addElementary rules { d with span := other } e' g usage) := by
  rw [addElementary_eq, addElementary_eq]
  dsimp only
  have hencoding : (w.resolveUsage rules usage d.name e.span).1 =
      (v.resolveUsage rules usage d.name e'.span).1 :=
    (resolveUsage_cases rules usage d.name e.span w).1.trans
      (resolveUsage_cases rules usage d.name e'.span v).1.symm
  have hresolved := h.of_agrees (.resolveUsage rules usage d.name e.span w)
    (.resolveUsage rules usage d.name e'.span v)
  rw [hencoding, hresolved.cursor_eq]
  obtain ⟨hnext, hbounded⟩ := hresolved.bound (Storage.add?
    (v.resolveUsage rules usage d.name e'.span).2.cursor (Storage.length .elementary d.shape
      (v.resolveUsage rules usage d.name e'.span).1 d.occurs)) d.name d.name e.span e'.span
  rw [hnext]
  refine hbounded.finishElementary ?_ e.span e'.span _
  exact congrArg (fun x : Field => { x with
    usage := usage, encoding := (v.resolveUsage rules usage d.name e'.span).1 }) hf

theorem fieldOf_eq (h : Alike w v) (d : Entry.Descriptor) (other : Span) (e e' : Entry)
    (target : Option Nat) : (w.fieldOf ⟨d, e⟩ target).withoutLine =
      (v.fieldOf ⟨{ d with span := other }, e'⟩ target).withoutLine := by
  have hparent := congrArg (Option.map Prod.fst) h.head_eq
  rw [Option.map_map, Option.map_map] at hparent
  have hparent' : w.groups.head?.map OpenGroup.index = v.groups.head?.map OpenGroup.index := hparent
  have hown := ofDescriptor_withoutLine d other e.line e'.line
  simp only [fieldOf, hparent']
  exact congrArg (fun x : Field => { x with
    parent := v.groups.head?.map OpenGroup.index, redefinesTarget := target }) hown

theorem usageOf_eq (h : Alike w v) (d : Entry.Descriptor) (other : Span) :
    w.usageOf d = v.usageOf { d with span := other } := by
  have husage := congrArg (Option.bind · (·.2.2)) h.head_eq
  rw [Option.bind_map, Option.bind_map] at husage
  exact congrArg d.usage.or husage

theorem declare (h : Alike w v) (rules : Rules) (d : Entry.Descriptor) (other : Span)
    (e e' : Entry) :
    Alike (w.declare rules ⟨d, e⟩) (v.declare rules ⟨{ d with span := other }, e'⟩) := by
  obtain ⟨htarget, hopened⟩ := h.redefine rules d { d with span := other } rfl rfl e.span e'.span
  unfold Walk.declare
  dsimp only
  rw [← htarget, ← h.usageOf_eq d other]
  have hf := h.fieldOf_eq d other e e' (w.redefine rules d e.span).1
  split
  · exact hopened.addGroup d other e e' hf _
  · exact hopened.addElementary rules d other e e' hf _

/-! ## Entries -/

theorem addCondition (h : Alike w v) (rules : Rules) (d : Entry.Descriptor) (other : Span)
    (e e' : Entry) :
    Alike (w.addCondition rules d e) (v.addCondition rules { d with span := other } e') := by
  have hown := ofDescriptor_withoutLine d other e.line e'.line
  unfold Walk.addCondition
  split
  · exact h
  · rw [h.last_eq]
    cases hl : v.lastElementary with
    | none => exact h.of_agrees (.report w _) (.report v _)
    | some i =>
      cases hi : w.slots[i]? with
      | none =>
        simp only [Option.bind_some, hi, h.slot_none hi, Option.map_none]
        exact h.of_agrees (.report w _) (.report v _)
      | some s =>
        obtain ⟨t, ht, hview⟩ := h.slot hi
        obtain ⟨-, hstart, hend, -⟩ := Slot.eqs_of_view hview
        simp only [Option.bind_some, hi, ht, Option.map_some, hstart, hend]
        refine h.push ?_ e.span e'.span
        exact congrArg (fun x : Field =>
          { x.setExtent t.field.startPosition t.field.endPosition with host := some i }) hown

/-- Entries that are read alike make the same step. -/
theorem addEntry (h : Alike w v) (rules : Rules) {e e' : Entry}
    (hread : Entry.scan e.text = Entry.scan e'.text) :
    Alike (w.addEntry rules e) (v.addEntry rules e') := by
  unfold Walk.addEntry
  rw [← hread]
  obtain ⟨r, r', hs, hs'⟩ | ⟨hs, hs'⟩ | ⟨d, hs, hs'⟩ := Entry.scan_cases e.text e.span e'.span
  · rw [hs, hs']
    exact h.of_agrees (.report w r) (.report v r')
  · rw [hs, hs']
    exact h
  · rw [hs, hs']
    dsimp only
    split
    · exact h.addCondition rules d e'.span e e'
    · exact (h.closeScopes d.level).declare rules d e'.span e e'

theorem foldl (h : Alike w v) (rules : Rules) {entries entries' : List Entry}
    (hread : entries.map (fun e => Entry.scan e.text) =
      entries'.map fun e => Entry.scan e.text) :
    Alike (entries.foldl (Walk.addEntry rules) w) (entries'.foldl (Walk.addEntry rules) v) := by
  induction entries generalizing w v entries' with
  | nil =>
    obtain rfl := List.map_eq_nil_iff.1 hread.symm
    exact h
  | cons e rest ih =>
    obtain ⟨e', rest', rfl, he, hrest⟩ := List.map_eq_cons_iff.1 hread.symm
    exact ih (h.addEntry rules he.symm) hrest.symm

end Alike

/-- Entries that are read alike make the same walk. -/
theorem alike_run (rules : Rules) {entries entries' : List Entry}
    (h : entries.map (fun e => Entry.scan e.text) = entries'.map fun e => Entry.scan e.text) :
    Alike (run rules entries) (run rules entries') :=
  ((Alike.refl (start rules)).foldl rules h).closeScopes 0

end Walk

/-- Records of entries that are read alike differ in lines and findings at most. -/
theorem fields_ofEntries_congr (rules : Rules) {entries entries' : List Entry}
    (h : entries.map (fun e => Entry.scan e.text) = entries'.map fun e => Entry.scan e.text) :
    (ofEntries rules entries).fields.map Field.withoutLine =
      (ofEntries rules entries').fields.map Field.withoutLine := by
  have hlaid := (Walk.alike_run rules h).fields_eq
  have hdone : ∀ es : List Entry, (ofEntries rules es).fields.map Field.withoutLine =
      prune rules (assignOverlays ((Walk.run rules es).fields.map Field.withoutLine)) := by
    intro es
    rw [assignOverlays_withoutLine, prune_withoutLine]
    rfl
  rw [hdone, hdone, hlaid]

/-- Lines with the same texts have the same fields, wherever they stand. -/
theorem fields_ofLines_congr (rules : Rules) {lines lines' : List Line}
    (h : lines.map (·.text) = lines'.map (·.text)) :
    (ofLines rules lines).fields.map Field.withoutLine =
      (ofLines rules lines').fields.map Field.withoutLine := by
  have hread := congrArg (List.map Entry.scan)
    (Entry.texts_ofLines_congr rules.strategy.columns? h)
  rw [List.map_map, List.map_map] at hread
  exact fields_ofEntries_congr rules hread

end Record

end DataDivision
