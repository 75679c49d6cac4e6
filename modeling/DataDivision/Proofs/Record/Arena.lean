import DataDivision.Proofs.Entry.Joining
import DataDivision.Proofs.Record.Extent
import DataDivision.Proofs.Record.Numbering
import DataDivision.Proofs.Record.Placing
import DataDivision.Proofs.Rules.Defaults

/-!
Links inside a record.

All links of a field lead to earlier fields that fit it (`Field.LinksBack`).  Every step of a walk
keeps this (`Walk.linked_run`), so does dropping fields (`isLinked_prune`), and the lists of
children and condition names hold exactly the fields that refer to one (`isArena_ofEntries`).
-/

namespace DataDivision

/-- The links of a field at an index lead to earlier fields: to a group of a lower level, from a
condition name to an elementary item with the same bytes, from a redefinition to an item with the
same start. -/
structure Field.LinksBack (f : Field) (fields : List Field) (i : Nat) : Prop where
  parent : ∀ p, f.parent = some p → p < i ∧
    ∃ g, fields[p]? = some g ∧ g.isGroup = true ∧ g.level < f.level
  condition : f.isCondition = true → f.parent = none ∧ f.host.isSome = true
  host : ∀ h, f.host = some h → f.isCondition = true ∧ h < i ∧
    ∃ g, fields[h]? = some g ∧ g.isElementary = true ∧ f.startPosition = g.startPosition ∧
      f.endPosition = g.endPosition
  target : ∀ t, f.redefinesTarget = some t → t < i ∧
    ∃ g, fields[t]? = some g ∧ g.isCondition = false ∧ g.startPosition = f.startPosition

/-- Some fields are the first ones of others as far as links to them tell. -/
def Record.FieldsKept (fields fields' : List Field) : Prop :=
  ∀ (j : Nat) (g : Field), fields[j]? = some g → ∃ g', fields'[j]? = some g' ∧ g'.kind = g.kind ∧
    g'.level = g.level ∧ g'.startPosition = g.startPosition ∧
    (g.isElementary = true → g'.endPosition = g.endPosition)

theorem Record.FieldsKept.append (fields more : List Field) :
    FieldsKept fields (fields ++ more) := by
  intro j g hj
  obtain ⟨hlt, -⟩ := List.getElem?_eq_some_iff.1 hj
  exact ⟨g, by rwa [List.getElem?_append_left hlt], rfl, rfl, rfl, fun _ => rfl⟩

theorem Field.LinksBack.mono {fields fields' : List Field} {f : Field} {i : Nat}
    (h : f.LinksBack fields i) (hk : Record.FieldsKept fields fields') : f.LinksBack fields' i := by
  refine ⟨fun p hp => ?_, h.condition, fun j hj => ?_, fun t ht => ?_⟩
  · obtain ⟨hlt, g, hg, hgroup, hlevel⟩ := h.parent p hp
    obtain ⟨g', hg', hkind, hl, -, -⟩ := hk p g hg
    exact ⟨hlt, g', hg', by simpa [Field.isGroup, hkind] using hgroup, hl ▸ hlevel⟩
  · obtain ⟨hc, hlt, g, hg, he, hs, hend⟩ := h.host j hj
    obtain ⟨g', hg', hkind, -, hs', hend'⟩ := hk j g hg
    exact ⟨hc, hlt, g', hg', by simpa [Field.isElementary, hkind] using he, hs'.symm ▸ hs,
      (hend' he).symm ▸ hend⟩
  · obtain ⟨hlt, g, hg, hc, hs⟩ := h.target t ht
    obtain ⟨g', hg', hkind, -, hs', -⟩ := hk t g hg
    exact ⟨hlt, g', hg', by simpa [Field.isCondition, hkind] using hc, hs'.trans hs⟩

/-- All links of some fields lead back. -/
def Record.IsLinked (fields : List Field) : Prop :=
  ∀ (i : Nat) (f : Field), fields[i]? = some f → f.LinksBack fields i

namespace Record

/-! ## Links in a walk -/

/-- All fields on the way from a field to the base of its storage start alike. -/
theorem start_baseOf {fields : List Field} (h : IsLinked fields) {i : Nat} {f base : Field}
    (hi : fields[i]? = some f) (hb : fields[baseOf fields i]? = some base) :
    base.startPosition = f.startPosition := by
  induction i using Nat.strongRecOn generalizing f with
  | _ i ih =>
    have ht : targetOf fields i = f.redefinesTarget := by simp [targetOf, hi]
    cases hr : f.redefinesTarget with
    | none =>
      rw [baseOf_of_target_none (ht.trans hr), hi] at hb
      rw [Option.some.inj hb]
    | some t =>
      obtain ⟨hlt, g, hg, -, hs⟩ := (h i f hi).target t hr
      rw [baseOf_of_target_some (ht.trans hr) hlt] at hb
      exact (ih t hlt hg hb).trans hs

namespace Walk

theorem getElem?_fields {w : Walk} {i : Nat} {f : Field} :
    w.fields[i]? = some f ↔ ∃ slot, w.slots[i]? = some slot ∧ slot.field = f := by
  rw [fields, List.getElem?_map, Option.map_eq_some_iff]

/-- The field that a name refers to is no condition name. -/
theorem isCondition_of_target? {w : Walk} {name : String} {i : Nat} {target : Slot}
    (h : w.target? name = some i) (hi : w.slots[i]? = some target) :
    target.field.isCondition = false := by
  obtain ⟨⟨f, j⟩, hf, rfl⟩ := Option.map_eq_some_iff.1 h
  have hmem := List.mem_reverse.1 (List.mem_of_find?_eq_some hf)
  have hj : w.fields[j]? = some f := by simpa [List.mem_zipIdx_iff_getElem?] using hmem
  obtain ⟨slot, hslot, rfl⟩ := getElem?_fields.1 hj
  rw [hi] at hslot
  cases hslot
  have hp := List.find?_some hf
  simp only [Bool.and_eq_true, Bool.not_eq_true'] at hp
  exact hp.1

theorem parent_ofDescriptor (d : Entry.Descriptor) (line : Nat) :
    (Field.ofDescriptor d line).parent = none := by
  unfold Field.ofDescriptor
  cases d.shape <;> rfl

theorem redefinesTarget_ofDescriptor (d : Entry.Descriptor) (line : Nat) :
    (Field.ofDescriptor d line).redefinesTarget = none := by
  unfold Field.ofDescriptor
  cases d.shape <;> rfl

/-- What holds of all links throughout a walk. -/
structure Linked (w : Walk) : Prop where
  links : IsLinked w.fields
  group_level : ∀ group ∈ w.groups, ∀ slot : Slot, w.slots[group.index]? = some slot →
    slot.field.level = group.level
  last : ∀ i, w.lastElementary = some i →
    ∃ slot, w.slots[i]? = some slot ∧ slot.field.isElementary = true

namespace Linked

variable {w u : Walk}

theorem of_eq (h : w.Linked) (hs : u.slots = w.slots) (hg : u.groups = w.groups)
    (hl : u.lastElementary = w.lastElementary) : u.Linked := by
  refine ⟨?_, ?_, ?_⟩
  · rw [fields, hs]
    exact h.links
  · rw [hg, hs]
    exact h.group_level
  · rw [hl, hs]
    exact h.last

/-- The links of the field in a slot lead back. -/
theorem linksBack (h : w.Linked) {i : Nat} {slot : Slot} (hi : w.slots[i]? = some slot) :
    slot.field.LinksBack w.fields i :=
  h.links i slot.field (getElem?_fields.2 ⟨slot, hi, rfl⟩)

theorem closes (h : w.Linked) {group : OpenGroup} {slot : Slot} {next : Nat}
    (hc : Closes w u group slot next) : u.Linked := by
  have hkept : FieldsKept w.fields u.fields := by
    intro j g hj
    obtain ⟨s, hs, rfl⟩ := getElem?_fields.1 hj
    rcases hc.kept hs with ⟨rfl, hu⟩ | hu
    · refine ⟨_, getElem?_fields.2 ⟨_, hu, rfl⟩, rfl, rfl, rfl, fun he => ?_⟩
      rw [hc.isElementary] at he
      cases he
    · exact ⟨_, getElem?_fields.2 ⟨s, hu, rfl⟩, rfl, rfl, rfl, fun _ => rfl⟩
  refine ⟨?_, ?_, ?_⟩
  · intro i f hf
    obtain ⟨s, hs, rfl⟩ := getElem?_fields.1 hf
    rcases hc.getElem?_slots hs with ⟨rfl, rfl⟩ | ⟨-, hs⟩
    · have hl := (h.linksBack hc.slot_eq).mono hkept
      refine ⟨hl.parent, hl.condition, fun j hj => ?_, hl.target⟩
      -- A group describes no field, so its new end matters to no link of its own.
      have hcond := (hl.host j hj).1
      rw [hc.isCondition] at hcond
      cases hcond
    · exact (h.linksBack hs).mono hkept
  · intro g hg s hs
    have hg' : g ∈ w.groups := hc.groups_eq ▸ List.mem_cons_of_mem _ hg
    rcases hc.getElem?_slots hs with ⟨hi, rfl⟩ | ⟨-, hs⟩
    · exact h.group_level g hg' slot (hi ▸ hc.slot_eq)
    · exact h.group_level g hg' s hs
  · intro i hi
    rw [hc.last_eq] at hi
    obtain ⟨s, hs, he⟩ := h.last i hi
    rcases hc.kept hs with ⟨rfl, -⟩ | hu
    · rw [hc.isElementary] at he
      cases he
    · exact ⟨s, hu, he⟩

/-- Adding a slot at the end changes no link before. -/
theorem snoc (h : w.Linked) (hn : w.Nested) {slot : Slot} (hs : u.slots = w.slots ++ [slot])
    (hlink : slot.field.LinksBack w.fields w.slots.length)
    (hg : ∀ group ∈ u.groups, group ∈ w.groups ∨
      group.index = w.slots.length ∧ slot.field.level = group.level)
    (hl : ∀ i, u.lastElementary = some i → w.lastElementary = some i ∨
      i = w.slots.length ∧ slot.field.isElementary = true) : u.Linked := by
  have hfields : u.fields = w.fields ++ [slot.field] := by simp [fields, hs]
  have hkept : FieldsKept w.fields u.fields := hfields ▸ .append _ _
  refine ⟨?_, ?_, ?_⟩
  · intro i f hf
    obtain ⟨s, hu, rfl⟩ := getElem?_fields.1 hf
    rcases getElem?_snoc (hs ▸ hu) with ⟨-, hw⟩ | ⟨rfl, rfl⟩
    · exact (h.linksBack hw).mono hkept
    · exact hlink.mono hkept
  · intro g hm s hu
    rcases hg g hm with hm | ⟨hi, hlevel⟩ <;>
      rcases getElem?_snoc (hs ▸ hu) with ⟨hlt, hw⟩ | ⟨he, rfl⟩
    · exact h.group_level g hm s hw
    · exact absurd (hn.index_lt hm) (by omega)
    · omega
    · exact hlevel
  · intro i hi
    rcases hl i hi with hi | ⟨rfl, he⟩
    · obtain ⟨s, hu, he⟩ := h.last i hi
      obtain ⟨hlt, -⟩ := List.getElem?_eq_some_iff.1 hu
      exact ⟨s, by rwa [hs, List.getElem?_append_left hlt], he⟩
    · exact ⟨slot, by rw [hs, List.getElem?_concat_length], he⟩

/-- A condition name describes an elementary item and has the bytes of that. -/
theorem condition (h : w.Linked) (hn : w.Nested) {d : Entry.Descriptor} (line : Nat) (span : Span)
    {i : Nat} {slot : Slot} (hk : d.kind = .condition) (hl : w.lastElementary = some i)
    (hi : w.slots[i]? = some slot) : (w.push (conditionOf d line i slot) span).Linked := by
  obtain ⟨hlt, -⟩ := List.getElem?_eq_some_iff.1 hi
  obtain ⟨host, hhost, he⟩ := h.last i hl
  obtain rfl : slot = host := Option.some.inj (hi.symm.trans hhost)
  have hcond : (conditionOf d line i slot).isCondition = true := by
    simp [conditionOf, Field.isCondition, Field.setExtent, kind_ofDescriptor, hk]
  have hparent : (conditionOf d line i slot).parent = none := parent_ofDescriptor d line
  have htarget : (conditionOf d line i slot).redefinesTarget = none :=
    redefinesTarget_ofDescriptor d line
  have hlinks : (conditionOf d line i slot).LinksBack w.fields w.slots.length := by
    refine ⟨fun p hp => ?_, fun _ => ⟨hparent, rfl⟩, fun j hj => ?_, fun t ht => ?_⟩
    · rw [hparent] at hp
      cases hp
    · obtain rfl : i = j := Option.some.inj hj
      exact ⟨hcond, hlt, slot.field, getElem?_fields.2 ⟨slot, hi, rfl⟩, he, rfl, rfl⟩
    · rw [htarget] at ht
      cases ht
  exact h.snoc hn (slots_push w _ span) hlinks (fun g hg => .inl hg) fun j hj => .inl hj

/-- A declaration is linked to the innermost open group and to the item that it redefines. -/
theorem places (h : w.Linked) (hn : w.Nested) {x : Declaration} {target : Option Nat} {v : Walk}
    {slot : Slot} (hk : x.descriptor.kind ≠ .condition)
    (hs : nextScope? x.descriptor.level w.groups w.overlays = none)
    (hp : Places w u x target v slot) : u.Linked := by
  have hkind : slot.field.kind = x.descriptor.kind := hp.kind_eq
  refine h.snoc hn hp.slots_eq ?_ ?_ ?_
  · refine ⟨fun p hparent => ?_, fun hc => ?_, fun j hj => ?_, fun t ht => ?_⟩
    · rw [hp.parent_eq, Option.map_eq_some_iff] at hparent
      obtain ⟨group, hg, rfl⟩ := hparent
      have hm : group ∈ w.groups := List.mem_of_mem_head? hg
      obtain ⟨outer, ho, hgroup, -⟩ := hn.grounded group hm
      refine ⟨hn.index_lt hm, outer.field, getElem?_fields.2 ⟨outer, ho, rfl⟩, hgroup, ?_⟩
      rw [h.group_level group hm outer ho, hp.level_eq]
      exact (hn.levels_lt hs).1 group hm
    · rw [Field.isCondition, hkind, beq_iff_eq] at hc
      exact absurd hc hk
    · rw [hp.host_eq] at hj
      cases hj
    · rw [hp.target_eq] at ht
      rw [hp.start_eq]
      cases hp.rewinds with
      | stay => cases ht
      | back _ named target_eq base_eq =>
        obtain rfl := Option.some.inj ht
        refine ⟨target?_lt named, _, getElem?_fields.2 ⟨_, target_eq, rfl⟩,
          isCondition_of_target? named target_eq, ?_⟩
        exact (start_baseOf h.links (getElem?_fields.2 ⟨_, target_eq, rfl⟩)
          (getElem?_fields.2 ⟨_, base_eq, rfl⟩)).symm
  · intro g hg
    rcases (hp.mem_groups hk).1 hg with hg | ⟨-, rfl⟩
    · exact .inl hg
    · exact .inr ⟨rfl, hp.level_eq⟩
  · intro i hi
    cases hd : x.descriptor.kind with
    | condition => exact absurd hd hk
    | group =>
      rw [(hp.of_group hd).2.1] at hi
      exact .inl hi
    | elementary =>
      rw [(hp.of_elementary hd).2, Option.some.injEq] at hi
      refine .inr ⟨hi.symm, ?_⟩
      rw [Field.isElementary, hkind, hd]
      rfl

end Linked

theorem linked_start (rules : Rules) : (start rules).Linked := by
  refine ⟨fun i f hf => ?_, ?_, ?_⟩
  · simp [fields, start] at hf
  · simp [start]
  · simp [start]

/-- All links in a walk lead back, and what holds at the start and is kept by every step of a walk
with such links holds after a whole walk. -/
theorem run_linked_steps {P : Walk → Prop} {rules : Rules} (hstart : P (start rules))
    (hcloses : ∀ w u group slot next, w.Nested → w.Linked → Closes w u group slot next →
      P w → P u)
    (hsettles : ∀ w overlay outer, w.overlays = overlay :: outer → P w →
      P (w.closeOverlay overlay outer))
    (hreport : ∀ w (d : Diagnostic), P w → P (w.report d))
    (hcondition : ∀ w d line span i slot, d.kind = .condition → w.Nested → w.Linked →
      w.slots[i]? = some slot → P w → P (w.push (conditionOf d line i slot) span))
    (hplaces : ∀ w u x target v slot, w.Nested → w.Linked → x.descriptor.kind ≠ .condition →
      nextScope? x.descriptor.level w.groups w.overlays = none → Places w u x target v slot →
      P w → P u)
    (entries : List Entry) : (run rules entries).Linked ∧ P (run rules entries) := by
  refine run_steps (P := fun w => w.Linked ∧ P w) ⟨linked_start rules, hstart⟩ ?_ ?_ ?_ ?_ ?_
    entries
  · exact fun w u group slot next hn hc h =>
      ⟨h.1.closes hc, hcloses w u group slot next hn h.1 hc h.2⟩
  · exact fun w overlay outer _ ho h => ⟨h.1.of_eq rfl rfl rfl, hsettles w overlay outer ho h.2⟩
  · exact fun w d h => ⟨h.1.of_eq rfl rfl rfl, hreport w d h.2⟩
  · exact fun w d line span i slot hk hn hl hi h =>
      ⟨h.1.condition hn line span hk hl hi, hcondition w d line span i slot hk hn h.1 hi h.2⟩
  · exact fun w u x target v slot hn hk hs hp h =>
      ⟨h.1.places hn hk hs hp, hplaces w u x target v slot hn h.1 hk hs hp h.2⟩

theorem linked_run (rules : Rules) (entries : List Entry) : (run rules entries).Linked :=
  (run_linked_steps (P := fun _ => True) trivial (fun _ _ _ _ _ _ _ _ => id)
    (fun _ _ _ _ => id) (fun _ _ => id) (fun _ _ _ _ _ _ _ _ _ _ => id)
    (fun _ _ _ _ _ _ _ _ _ _ _ => id) entries).1

/-! ## Source lines -/

theorem lines_close (w : Walk) (s : Scope) :
    (w.close s).slots.map (·.field.line) = w.slots.map (·.field.line) := by
  cases s with
  | overlay overlay outer => rfl
  | group group outer =>
    cases hi : w.slots[group.index]? with
    | none => simp only [close, closeGroup, hi]
    | some slot =>
      rw [close, closeGroup_of_some outer hi]
      obtain ⟨hlt, -⟩ := List.getElem?_eq_some_iff.1 hi
      simp only [finishGroup, slots_bound]
      refine List.ext_getElem? fun j => ?_
      by_cases hj : group.index = j
      · rw [List.getElem?_map, List.getElem?_map, ← hj, List.getElem?_set_self hlt, hi]
        rfl
      · rw [List.getElem?_map, List.getElem?_map, List.getElem?_set_ne hj]

theorem lines_closeScopes (w : Walk) (level : Nat) :
    (w.closeScopes level).slots.map (·.field.line) = w.slots.map (·.field.line) :=
  closeScopes_induct (P := fun v => v.slots.map (·.field.line) = w.slots.map (·.field.line))
    (fun v s _ h => (lines_close v s).trans h) rfl

/-- An entry adds a field on its own line or none. -/
theorem lines_addEntry (rules : Rules) (w : Walk) (entry : Entry) :
    ((w.addEntry rules entry).slots.map (·.field.line)).Sublist
      (w.slots.map (·.field.line) ++ [entry.line]) := by
  obtain ⟨-, ha | ⟨d, -, ha⟩ | ⟨d, i, slot, -, -, -, ha⟩⟩ | ⟨x, hx, hk, ha⟩ :=
    addEntry_cases rules w entry
  · rw [ha]
    exact List.sublist_append_left _ _
  · rw [ha]
    exact List.sublist_append_left _ _
  · have hline : (conditionOf d entry.line i slot).line = entry.line := line_ofDescriptor d _
    have hlines : (w.addEntry rules entry).slots.map (·.field.line) =
        w.slots.map (·.field.line) ++ [entry.line] := by
      rw [ha, push, List.map_append, List.map_singleton, hline]
    exact hlines ▸ .refl _
  · obtain ⟨target, v, slot, hp⟩ := places_declare rules (w.closeScopes x.descriptor.level) hk
    have hlines : (w.addEntry rules entry).slots.map (·.field.line) =
        w.slots.map (·.field.line) ++ [entry.line] := by
      rw [ha, hp.slots_eq, List.map_append, List.map_singleton, lines_closeScopes, hp.line_eq,
        Entry.entry_of_declaration? hx]
    exact hlines ▸ .refl _

/-- Fields stand in the order of their entries. -/
theorem lines_run_sublist (rules : Rules) (entries : List Entry) :
    ((run rules entries).slots.map (·.field.line)).Sublist (entries.map (·.line)) := by
  have hfold : ∀ w : Walk, ((entries.foldl (addEntry rules) w).slots.map (·.field.line)).Sublist
      (w.slots.map (·.field.line) ++ entries.map (·.line)) := by
    induction entries with
    | nil => simp
    | cons entry rest ih =>
      intro w
      rw [List.foldl_cons, List.map_cons, List.append_cons]
      exact (ih _).trans (.append (lines_addEntry rules w entry) (.refl _))
  rw [run, lines_closeScopes]
  exact hfold (start rules)

end Walk

/-! ## Links in a record -/

/-- All groups around a field of a lower level are groups of a lower level. -/
theorem IsLinked.group_of_mem_chain {fields : List Field} (h : IsLinked fields) {p q level : Nat}
    {g : Field} (hp : fields[p]? = some g) (hg : g.isGroup = true) (hl : g.level < level)
    (hq : q ∈ chain (parentOf fields) p) :
    ∃ g', fields[q]? = some g' ∧ g'.isGroup = true ∧ g'.level < level := by
  induction p using Nat.strongRecOn generalizing g with
  | _ p ih =>
    rw [chain] at hq
    rcases List.mem_cons.1 hq with rfl | hq
    · exact ⟨g, hp, hg, hl⟩
    · have hparent : parentOf fields p = g.parent := by simp [parentOf, hp]
      rw [hparent] at hq
      cases ho : g.parent with
      | none => simp [ho] at hq
      | some o =>
        obtain ⟨hlt, outer, hfo, hgo, hlo⟩ := (h p g hp).parent o ho
        rw [ho] at hq
        simp only [hlt, ↓reduceIte] at hq
        exact ih o hlt hfo hgo (Nat.lt_trans hlo hl) hq

theorem getElem?_assignOverlays (fields : List Field) (i : Nat) :
    (assignOverlays fields)[i]? = fields[i]?.map fun f : Field =>
      { f with overlays := overlaysOf fields (basesOf fields) i } := by
  simp [assignOverlays, List.getElem?_mapIdx]

theorem isLinked_assignOverlays {fields : List Field} (h : IsLinked fields) :
    IsLinked (assignOverlays fields) := by
  have hkept : FieldsKept fields (assignOverlays fields) := by
    intro j g hj
    exact ⟨_, (getElem?_assignOverlays fields j).trans (congrArg _ hj), rfl, rfl, rfl, fun _ => rfl⟩
  intro i f' hf
  rw [getElem?_assignOverlays, Option.map_eq_some_iff] at hf
  obtain ⟨f, hf, rfl⟩ := hf
  have hl := (h i f hf).mono hkept
  exact ⟨hl.parent, hl.condition, hl.host, hl.target⟩

theorem parentOf_assignOverlays (fields : List Field) :
    parentOf (assignOverlays fields) = parentOf fields := by
  funext i
  rw [parentOf, parentOf, getElem?_assignOverlays]
  cases fields[i]? <;> rfl

/-- Dropping fields leaves no link that does not lead back. -/
theorem isLinked_prune {rules : Rules} {fields : List Field} (h : IsLinked fields) :
    IsLinked (prune rules fields) := by
  have hn := numbering_numbersOf rules fields
  have hmem : ∀ {i k : Nat} {g : Field}, fields[i]? = some g →
      renumbered (numbersOf rules fields) i = some k →
      ∃ g', (prune rules fields)[k]? = some g' ∧ g'.kind = g.kind ∧ g'.level = g.level ∧
        g'.startPosition = g.startPosition ∧ g'.endPosition = g.endPosition :=
    fun hg hk => ⟨_, getElem?_prune.2 ⟨_, _, hg, hk, rfl⟩, rfl, rfl, rfl, rfl⟩
  intro k f' hk
  obtain ⟨i, f, hf, hi, rfl⟩ := getElem?_prune.1 hk
  have hl := h i f hf
  refine ⟨fun p' hp' => ?_, fun hc => ?_, fun h' hh' => ?_, fun t' ht' => ?_⟩
  · obtain ⟨-, p, q, hp, hq, hnq⟩ := keptParent_eq_some hp'
    obtain ⟨hlt, g, hg, hgroup, hlevel⟩ := hl.parent p hp
    obtain ⟨g', hg', hgroup', hlevel'⟩ := h.group_of_mem_chain hg hgroup hlevel hq
    obtain ⟨o, ho, hkind, hol, -, -⟩ := hmem hg' hnq
    refine ⟨hn.strictMono hnq hi (Nat.lt_of_le_of_lt (mem_chain_le hq) hlt), o, ho, ?_, ?_⟩
    · rwa [Field.isGroup, hkind]
    · rwa [hol]
  · obtain ⟨hp, hhost⟩ := hl.condition hc
    obtain ⟨j, hj⟩ := Option.isSome_iff_exists.1 hhost
    have hkept := (hn.isSome_iff i f hf fun j' hj' => (hl.host j' hj').2.1).1 (by simp [hi])
    refine ⟨?_, ?_⟩
    · simp only [relink, keptParent, hp, Option.bind_none, ite_self]
    · simp only [relink, hj, Option.bind_some]
      exact hkept.2 j hj
  · obtain ⟨j, hj, hnj⟩ := Option.bind_eq_some_iff.1 hh'
    obtain ⟨hc, hlt, g, hg, he, hs, hend⟩ := hl.host j hj
    obtain ⟨o, ho, hkind, -, hos, hoe⟩ := hmem hg hnj
    refine ⟨hc, hn.strictMono hnj hi hlt, o, ho, ?_, hs.trans hos.symm, hend.trans hoe.symm⟩
    rwa [Field.isElementary, hkind]
  · obtain ⟨t, ht, hnt⟩ := Option.bind_eq_some_iff.1 ht'
    obtain ⟨hlt, g, hg, hc, hs⟩ := hl.target t ht
    obtain ⟨o, ho, hkind, -, hos, -⟩ := hmem hg hnt
    refine ⟨hn.strictMono hnt hi hlt, o, ho, ?_, hos.trans hs⟩
    rwa [Field.isCondition, hkind]

/-- The fields of a record, as a list in which they refer to one another by their indices. -/
structure IsArena (fields : List Field) : Prop where
  links : IsLinked fields
  children_sorted : ∀ f ∈ fields, f.children.Pairwise (· < ·)
  mem_children_iff : ∀ (i : Nat) (f : Field), fields[i]? = some f → ∀ j, j ∈ f.children ↔
    ∃ g : Field, fields[j]? = some g ∧ g.parent = some i
  conditionNames_sorted : ∀ f ∈ fields, f.conditionNames.Pairwise (· < ·)
  mem_conditionNames_iff : ∀ (i : Nat) (f : Field), fields[i]? = some f →
    ∀ j, j ∈ f.conditionNames ↔ ∃ g : Field, fields[j]? = some g ∧ g.isCondition = true ∧ g.host = some i
  storage_eq : ∀ f ∈ fields, f.isElementary = false → f.storageLength = 0
  end_eq : ∀ f ∈ fields, f.isElementary = true → f.endPosition =
    if 0 < f.storageLength then f.startPosition + f.storageLength - 1 else f.startPosition

theorem isArena_ofEntries (rules : Rules) (entries : List Entry) :
    IsArena (ofEntries rules entries).fields := by
  have hl : IsLinked (ofEntries rules entries).fields :=
    isLinked_prune (isLinked_assignOverlays (Walk.linked_run rules entries).links)
  have hat : ∀ {k : Nat} {f : Field}, (ofEntries rules entries).fields[k]? = some f →
      f.children = indicesOf (ofEntries rules entries).fields (fun g => g.parent == some k) ∧
      f.conditionNames = indicesOf (ofEntries rules entries).fields fun g => g.host == some k := by
    intro k f hk
    obtain ⟨i, g, -, -, rfl⟩ := getElem?_prune.1 hk
    exact ⟨rfl, rfl⟩
  refine ⟨hl, ?_, ?_, ?_, ?_, ?_, ?_⟩
  · intro f hf
    obtain ⟨k, hk⟩ := List.mem_iff_getElem?.1 hf
    exact (hat hk).1 ▸ pairwise_indicesOf _ _
  · intro i f hf j
    simp only [(hat hf).1, mem_indicesOf, beq_iff_eq]
  · intro f hf
    obtain ⟨k, hk⟩ := List.mem_iff_getElem?.1 hf
    exact (hat hk).2 ▸ pairwise_indicesOf _ _
  · intro i f hf j
    simp only [(hat hf).2, mem_indicesOf, beq_iff_eq]
    refine exists_congr fun g => and_congr_right fun hg => ?_
    exact ⟨fun hh => ⟨((hl j g hg).host i hh).1, hh⟩, And.right⟩
  · exact fun f hf he => (isMeasured_of_mem_ofEntries hf).1 he
  · exact fun f hf he => (isMeasured_of_mem_ofEntries hf).2 he

/-- Fields of a record stand in the order of their lines. -/
theorem lines_ofLines_sublist (rules : Rules) (lines : List Line) :
    ((ofLines rules lines).fields.map (·.line)).Sublist (lines.map (·.number)) := by
  have hunlinked : ∀ fields : List Field,
      (fields.map Field.unlinked).map (·.line) = fields.map (·.line) := by
    intro fields
    rw [List.map_map]
    rfl
  have hoverlays : ∀ w : Walk,
      (assignOverlays w.fields).map (·.line) = w.slots.map (·.field.line) := by
    intro w
    refine List.ext_getElem? fun i => ?_
    rw [List.getElem?_map, getElem?_assignOverlays, Walk.fields, List.getElem?_map,
      List.getElem?_map, Option.map_map, Option.map_map]
    rfl
  have hkept := (keptFields_sublist rules (assignOverlays (Walk.run rules
    (Entry.ofLines rules.strategy.columns? lines)).fields)).map (·.line)
  rw [← hunlinked, ← map_unlinked_prune, hunlinked, hoverlays] at hkept
  exact (hkept.trans (Walk.lines_run_sublist rules _)).trans (Entry.lines_ofLines_sublist _ _)

/-- In the record of any lines of a source, in their order, every link leads back to a field that
fits, children and condition names are those that refer to the field, the bytes of a field are those
that its length tells, and no field stands on an earlier line than the one before. -/
theorem links_of_source_lines {rules : Rules} {texts : List (List Char)} {lines : List Line}
    (h : lines.Sublist (Source.ofLines texts).lines) :
    IsArena (ofLines rules lines).fields ∧
      ((ofLines rules lines).fields.map (·.line)).Pairwise (· ≤ ·) := by
  refine ⟨isArena_ofEntries rules _, ?_⟩
  have hsorted : (lines.map (·.number)).Pairwise (· < ·) :=
    List.pairwise_map.2 ((Source.pairwise_lines texts).sublist h)
  exact (hsorted.sublist (lines_ofLines_sublist rules lines)).imp Nat.le_of_lt

/-- A filler group and a comment drop out: the item inside the filler moves up to the record, and
its condition name and its redefinition follow it. -/
theorem links_of_source_lines_dropped_group :
    let texts := ["01 A.", "  * comment", "   05 FILLER.", "      10 B PIC X(2).",
      "         88 B-SET VALUE 'AB'.", "      10 C REDEFINES B PIC 9(2)."].map String.toList
    ∃ rules : Rules, Rules.interpretWith .plain {} = .ok rules ∧
      (Source.ofLines texts).content.Sublist (Source.ofLines texts).lines ∧
      ((ofLines rules (Source.ofLines texts).content).fields.map fun f =>
        (f.name, f.line, f.parent, f.host, f.redefinesTarget)) =
          [("A", 1, none, none, none), ("B", 4, some 0, none, none), ("B-SET", 5, none, some 1, none),
            ("C", 6, some 0, none, some 1)] ∧
      IsArena (ofLines rules (Source.ofLines texts).content).fields ∧
      ((ofLines rules (Source.ofLines texts).content).fields.map (·.line)).Pairwise (· ≤ ·) := by
  intro texts
  have hsub : (Source.ofLines texts).content.Sublist (Source.ofLines texts).lines :=
    List.filter_sublist
  have hview : ((ofLines (.standard {} .undivided) (Source.ofLines texts).content).fields.map
      fun f => (f.name, f.line, f.parent, f.host, f.redefinesTarget)) =
        [("A", 1, none, none, none), ("B", 4, some 0, none, none), ("B-SET", 5, none, some 1, none),
          ("C", 6, some 0, none, some 1)] := by
    decide +kernel
  exact ⟨_, Rules.interpret_default, hsub, hview, links_of_source_lines hsub⟩

end Record

end DataDivision
