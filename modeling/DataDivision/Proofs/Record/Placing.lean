import DataDivision.Proofs.Record.Conditions
import DataDivision.Proofs.Record.Extent

/-!
What a step leaves behind.

Closing a group gives the slot of that group its end and changes no other slot (`Closes`), and a
declaration adds one slot at the place where its storage begins (`Places`).  `run_steps` is the
induction over the steps of a walk with all that they do written out.
-/

namespace DataDivision.Record.Walk

/-! ## Findings -/

/-- The walk `v` differs from `w` by findings at most. -/
structure Agrees (v w : Walk) : Prop where
  slots_eq : v.slots = w.slots
  groups_eq : v.groups = w.groups
  overlays_eq : v.overlays = w.overlays
  shared_eq : v.shared = w.shared
  last_eq : v.lastElementary = w.lastElementary
  cursor_eq : v.cursor = w.cursor
  fits : v.tooLarge = false → w.tooLarge = false

namespace Agrees

theorem refl (w : Walk) : Agrees w w := ⟨rfl, rfl, rfl, rfl, rfl, rfl, id⟩

theorem trans {u v w : Walk} (h : Agrees u v) (h' : Agrees v w) : Agrees u w :=
  ⟨h.slots_eq.trans h'.slots_eq, h.groups_eq.trans h'.groups_eq,
    h.overlays_eq.trans h'.overlays_eq, h.shared_eq.trans h'.shared_eq,
    h.last_eq.trans h'.last_eq, h.cursor_eq.trans h'.cursor_eq, fun ht => h'.fits (h.fits ht)⟩

theorem report (w : Walk) (d : Diagnostic) : Agrees (w.report d) w :=
  ⟨rfl, rfl, rfl, rfl, rfl, rfl, id⟩

/-- A step that makes a finding at most leaves the rest as it is. -/
theorem of_reported {v w : Walk} (h : v = w ∨ ∃ d : Diagnostic, d.IsPlain ∧ v = w.report d) :
    Agrees v w := by
  obtain rfl | ⟨d, -, rfl⟩ := h
  · exact refl v
  · exact report w d

theorem overflow (w : Walk) (name : String) (span : Span) : Agrees (w.overflow name span) w := by
  unfold Walk.overflow
  split
  · exact refl w
  · rename_i ht
    exact ⟨rfl, rfl, rfl, rfl, rfl, rfl, fun _ => by simpa using ht⟩

theorem bound (w : Walk) (next : Option Nat) (name : String) (span : Span) :
    Agrees (w.bound next name span).2 w := by
  obtain ⟨n, -, -, hb⟩ | ⟨-, hb⟩ := bound_cases w next name span
  · rw [hb]
    exact refl w
  · rw [hb]
    exact overflow w name span

theorem resolveUsage (rules : Rules) (usage : Option String) (name : String) (span : Span)
    (w : Walk) : Agrees (w.resolveUsage rules usage name span).2 w :=
  of_reported (resolveUsage_cases rules usage name span w).2

end Agrees

/-! ## Closing a group -/

/-- The walk `u` is `w` with its innermost group closed before the position `next`. -/
structure Closes (w u : Walk) (group : OpenGroup) (slot : Slot) (next : Nat) : Prop where
  groups_eq : w.groups = group :: u.groups
  slot_eq : w.slots[group.index]? = some slot
  isGroup : slot.field.isGroup = true
  start_le : slot.field.startPosition ≤ w.cursor
  /-- All redefinitions inside the group are closed. -/
  overlays_le : ∀ overlay ∈ w.overlays, overlay.level ≤ group.level
  slots_eq : u.slots = w.slots.set group.index (slot.closed next)
  overlays_eq : u.overlays = w.overlays
  shared_eq : u.shared = w.shared
  last_eq : u.lastElementary = w.lastElementary
  cursor_eq : u.cursor = max w.cursor next
  next_le : next ≤ w.behindGroup slot
  fits : u.tooLarge = false → w.tooLarge = false ∧ next = w.behindGroup slot

/-- The innermost redefinition is the deepest. -/
theorem Nested.overlays_le {w : Walk} (h : w.Nested) {level : Nat}
    (hv : ∀ overlay ∈ w.overlays.head?, overlay.level ≤ level) :
    ∀ overlay ∈ w.overlays, overlay.level ≤ level := by
  have hlevels := h.overlay_levels
  cases ho : w.overlays with
  | nil => simp
  | cons top rest =>
    rw [ho] at hlevels hv
    have htop := hv top rfl
    intro overlay hm
    rcases List.mem_cons.1 hm with rfl | hm
    · exact htop
    · have := (List.pairwise_cons.1 hlevels).1 overlay hm
      omega

theorem closes_close {w : Walk} (h : w.Nested) {level : Nat} {group : OpenGroup}
    {outer : List OpenGroup}
    (hs : nextScope? level w.groups w.overlays = some (.group group outer)) :
    ∃ slot next, Closes w (w.close (.group group outer)) group slot next := by
  obtain ⟨hg, -, hv⟩ := nextScope?_eq_group_iff.1 hs
  obtain ⟨slot, hi, hk, hle⟩ := h.start_le_cursor hs
  have hclose := closeGroup_of_some outer hi
  have hagrees := Agrees.bound w (w.behindGroup? slot) slot.field.name group.span
  have hcases := bound_cases w (w.behindGroup? slot) slot.field.name group.span
  generalize w.bound (w.behindGroup? slot) slot.field.name group.span = bounded at *
  obtain ⟨next, v⟩ := bounded
  have hnext : next ≤ w.behindGroup slot ∧ (v.tooLarge = false → next = w.behindGroup slot) := by
    have hword : Storage.maxRecordLength + 1 ≤ Text.maxWord64 := by decide
    rw [behindGroup?_eq] at hcases
    obtain ⟨n, hn, -, he⟩ | ⟨hn, he⟩ := hcases
    · cases he
      split at hn
      · cases hn
        exact ⟨Nat.le_refl _, fun _ => rfl⟩
      · cases hn
    · cases he
      refine ⟨?_, fun ht => by simp at ht⟩
      split at hn
      · exact Nat.le_of_lt (hn _ rfl)
      · omega
  dsimp only at hagrees hclose
  refine ⟨slot, next, ?_⟩
  rw [close, hclose]
  exact {
    groups_eq := hg
    slot_eq := hi
    isGroup := hk
    start_le := hle
    overlays_le := h.overlays_le hv
    slots_eq := by simp only [finishGroup, hagrees.slots_eq]
    overlays_eq := hagrees.overlays_eq
    shared_eq := hagrees.shared_eq
    last_eq := hagrees.last_eq
    cursor_eq := by simp only [finishGroup, hagrees.cursor_eq]
    next_le := hnext.1
    fits := fun ht => ⟨hagrees.fits ht, hnext.2 ht⟩ }

namespace Closes

variable {w u : Walk} {group : OpenGroup} {slot : Slot} {next : Nat}

/-- A slot afterwards is that of the closed group or has not changed. -/
theorem getElem?_slots (h : Closes w u group slot next) {i : Nat} {s : Slot}
    (hs : u.slots[i]? = some s) :
    i = group.index ∧ s = slot.closed next ∨ i ≠ group.index ∧ w.slots[i]? = some s := by
  obtain ⟨hlt, -⟩ := List.getElem?_eq_some_iff.1 h.slot_eq
  rw [h.slots_eq] at hs
  by_cases hi : group.index = i
  · rw [← hi, List.getElem?_set_self hlt, Option.some.injEq] at hs
    exact .inl ⟨hi.symm, hs.symm⟩
  · rw [List.getElem?_set_ne hi] at hs
    exact .inr ⟨Ne.symm hi, hs⟩

/-- The groups that stay open began before the one that closes. -/
theorem index_lt (h : Closes w u group slot next) (hn : w.Nested) {g : OpenGroup}
    (hg : g ∈ u.groups) : g.index < group.index := by
  have hindices := hn.group_indices
  rw [h.groups_eq, List.pairwise_cons] at hindices
  exact hindices.1 g hg

theorem isElementary (h : Closes w u group slot next) : slot.field.isElementary = false :=
  Field.isElementary_of_isGroup h.isGroup

theorem isCondition (h : Closes w u group slot next) : slot.field.isCondition = false :=
  Field.isCondition_of_isGroup h.isGroup

theorem getElem?_index (h : Closes w u group slot next) :
    u.slots[group.index]? = some (slot.closed next) := by
  rw [h.slots_eq, List.getElem?_set_self (List.getElem?_eq_some_iff.1 h.slot_eq).1]

/-- A slot stays as it is, unless it is that of the closed group. -/
theorem kept (h : Closes w u group slot next) {i : Nat} {s : Slot} (hs : w.slots[i]? = some s) :
    s = slot ∧ u.slots[i]? = some (slot.closed next) ∨ u.slots[i]? = some s := by
  by_cases hi : i = group.index
  · subst hi
    exact .inl ⟨Option.some.inj (hs.symm.trans h.slot_eq), h.getElem?_index⟩
  · refine .inr ?_
    rwa [h.slots_eq, List.getElem?_set_ne (Ne.symm hi)]

end Closes

/-- A group without repetition is closed at the cursor. -/
theorem behindGroup_of_occurs_none {w : Walk} {slot : Slot} (ho : slot.field.occurs = none)
    (hle : slot.field.startPosition ≤ w.cursor) : w.behindGroup slot = w.cursor := by
  simp only [behindGroup, ho, Storage.repeatCount]
  omega

/-- The last repetition of a group ends at the cursor or behind it. -/
theorem cursor_le_behindGroup {w : Walk} {slot : Slot}
    (hle : slot.field.startPosition ≤ w.cursor) : w.cursor ≤ w.behindGroup slot := by
  have hmul := Nat.le_mul_of_pos_right (w.cursor - slot.field.startPosition)
    (Storage.repeatCount_pos slot.field.occurs)
  simp only [behindGroup]
  omega

/-! ## Declaring -/

/-- The walk `v` is `w` where a declaration begins: as it is, or back at the storage that the
declaration redefines.  The redefined field is `target`. -/
inductive Rewinds (w : Walk) (d : Entry.Descriptor) : Option Nat → Walk → Prop
  | stay : Rewinds w d none w
  | back {name : String} {i : Nat} {target base : Slot} (redefines : d.redefines = some name)
      (named : w.target? name = some i) (target_eq : w.slots[i]? = some target)
      (base_eq : w.slots[baseOf w.fields i]? = some base) :
      Rewinds w d (some i) (w.enterOverlay d.level (baseOf w.fields i) target base)

theorem rewinds_redefine (rules : Rules) (d : Entry.Descriptor) (span : Span) (w : Walk) :
    ∃ v, w.Rewinds d (w.redefine rules d span).1 v ∧ Agrees (w.redefine rules d span).2 v := by
  obtain ⟨v, hv, hr⟩ | ⟨v, name, i, target, base, hv, hd, ht, hi, hb, hr⟩ :=
    redefine_cases rules d span w
  · refine ⟨w, ?_, ?_⟩ <;> rw [hr]
    · exact .stay
    · exact .of_reported hv
  · refine ⟨w.enterOverlay d.level (baseOf w.fields i) target base, ?_, ?_⟩ <;> rw [hr]
    · exact .back hd ht hi hb
    · obtain rfl | ⟨e, -, rfl⟩ := hv
      · exact .refl _
      · exact .report (w.enterOverlay d.level (baseOf w.fields i) target base) e

/-- The walk `u` is `w` with a declaration added, which begins where `v` is. -/
structure Places (w u : Walk) (x : Declaration) (target : Option Nat) (v : Walk) (slot : Slot) :
    Prop where
  rewinds : w.Rewinds x.descriptor target v
  slots_eq : u.slots = w.slots ++ [slot]
  overlays_eq : u.overlays = v.overlays
  shared_eq : u.shared = w.shared
  le_cursor : v.cursor ≤ u.cursor
  limit_eq : slot.limit = u.cursor
  start_eq : slot.field.startPosition = v.cursor
  kind_eq : slot.field.kind = x.descriptor.kind
  level_eq : slot.field.level = x.descriptor.level
  line_eq : slot.field.line = x.entry.line
  host_eq : slot.field.host = none
  parent_eq : slot.field.parent = w.groups.head?.map (·.index)
  target_eq : slot.field.redefinesTarget = target
  measured : slot.IsMeasured
  fits : u.tooLarge = false → w.tooLarge = false
  /-- A group stays open and has no bytes yet. -/
  of_group : x.descriptor.kind = .group →
    u.groups = ⟨w.slots.length, x.descriptor.level, x.entry.span, w.usageOf x.descriptor⟩ ::
        w.groups ∧
      u.lastElementary = w.lastElementary ∧ u.cursor = v.cursor ∧
      slot.field.endPosition = v.cursor
  of_elementary : x.descriptor.kind = .elementary →
    u.groups = w.groups ∧ u.lastElementary = some w.slots.length

theorem level_ofDescriptor (d : Entry.Descriptor) (line : Nat) :
    (Field.ofDescriptor d line).level = d.level := by
  unfold Field.ofDescriptor
  cases d.shape <;> rfl

theorem line_ofDescriptor (d : Entry.Descriptor) (line : Nat) :
    (Field.ofDescriptor d line).line = line := by
  unfold Field.ofDescriptor
  cases d.shape <;> rfl

theorem Rewinds.eqs {w v : Walk} {d : Entry.Descriptor} {target : Option Nat}
    (h : w.Rewinds d target v) : v.slots = w.slots ∧ v.groups = w.groups ∧ v.shared = w.shared ∧
      v.lastElementary = w.lastElementary ∧ v.tooLarge = w.tooLarge := by
  cases h <;> exact ⟨rfl, rfl, rfl, rfl, rfl⟩

theorem places_declare (rules : Rules) {x : Declaration} (w : Walk)
    (hk : x.descriptor.kind ≠ .condition) :
    ∃ target v slot, Places w (w.declare rules x) x target v slot := by
  obtain ⟨v, hv, ho⟩ := rewinds_redefine rules x.descriptor x.entry.span w
  obtain ⟨hvs, hvg, hvsh, hvl, hvt⟩ := hv.eqs
  unfold declare
  generalize w.redefine rules x.descriptor x.entry.span = opened at hv ho ⊢
  obtain ⟨target, o⟩ := opened
  dsimp only at hv ho ⊢
  refine ⟨target, v, ?_⟩
  cases hd : x.descriptor.kind with
  | condition => exact absurd hd hk
  | group =>
    refine ⟨⟨(w.fieldOf x target).setExtent o.cursor o.cursor, o.cursor, x.entry.span⟩, ?_⟩
    exact {
      rewinds := hv
      slots_eq := by simp only [addGroup, push, ho.slots_eq, hvs]
      overlays_eq := ho.overlays_eq
      shared_eq := ho.shared_eq.trans hvsh
      le_cursor := Nat.le_of_eq ho.cursor_eq.symm
      limit_eq := rfl
      start_eq := ho.cursor_eq
      kind_eq := kind_ofDescriptor _ _
      level_eq := level_ofDescriptor _ _
      line_eq := line_ofDescriptor _ _
      host_eq := host_ofDescriptor _ _
      parent_eq := rfl
      target_eq := rfl
      measured := by
        refine Slot.isMeasured_setExtent ?_ x.entry.span _ _ _
        simp [kind_fieldOf, hd]
      fits := fun ht => hvt ▸ ho.fits ht
      of_group := fun _ => ⟨by simp only [addGroup, push, ho.slots_eq, hvs, ho.groups_eq, hvg],
        ho.last_eq.trans hvl, ho.cursor_eq, ho.cursor_eq⟩
      of_elementary := fun h => by rw [hd] at h; cases h }
  | elementary =>
    rw [addElementary_eq]
    dsimp only
    have hr := Agrees.resolveUsage rules (w.usageOf x.descriptor) x.descriptor.name x.entry.span o
    generalize o.resolveUsage rules (w.usageOf x.descriptor) x.descriptor.name x.entry.span =
      resolved at hr ⊢
    obtain ⟨encoding, r⟩ := resolved
    dsimp only at hr ⊢
    have hb := Agrees.bound r (Storage.add? r.cursor (Storage.length .elementary
      x.descriptor.shape encoding x.descriptor.occurs)) x.descriptor.name x.entry.span
    generalize r.bound (Storage.add? r.cursor (Storage.length .elementary x.descriptor.shape
      encoding x.descriptor.occurs)) x.descriptor.name x.entry.span = bounded at hb ⊢
    obtain ⟨next, b⟩ := bounded
    dsimp only at hb ⊢
    have hbv := (hb.trans hr).trans ho
    refine ⟨⟨{ w.fieldOf x target with usage := w.usageOf x.descriptor, encoding := encoding }.place
      b.cursor (next - b.cursor), max b.cursor next, x.entry.span⟩, ?_⟩
    exact {
      rewinds := hv
      slots_eq := by simp only [finishElementary, push, hbv.slots_eq, hvs]
      overlays_eq := hbv.overlays_eq
      shared_eq := hbv.shared_eq.trans hvsh
      le_cursor := hbv.cursor_eq ▸ Nat.le_max_left _ _
      limit_eq := rfl
      start_eq := hbv.cursor_eq
      kind_eq := kind_ofDescriptor _ _
      level_eq := level_ofDescriptor _ _
      line_eq := line_ofDescriptor _ _
      host_eq := host_ofDescriptor _ _
      parent_eq := rfl
      target_eq := rfl
      measured := by
        have hf := (kind_fieldOf w x target).trans hd
        exact Slot.isMeasured_place (by exact hf) x.entry.span _ _
      fits := fun ht => hvt ▸ hbv.fits ht
      of_group := fun h => by rw [hd] at h; cases h
      of_elementary := fun _ => ⟨hbv.groups_eq.trans hvg,
        by simp only [finishElementary, hbv.slots_eq, hvs]⟩ }

/-- The groups that are open stay so, and a declared group is open, too. -/
theorem Places.mem_groups {w u v : Walk} {x : Declaration} {target : Option Nat} {slot : Slot}
    (h : Places w u x target v slot) (hk : x.descriptor.kind ≠ .condition) {group : OpenGroup} :
    group ∈ u.groups ↔ group ∈ w.groups ∨ x.descriptor.kind = .group ∧
      group = ⟨w.slots.length, x.descriptor.level, x.entry.span, w.usageOf x.descriptor⟩ := by
  cases hd : x.descriptor.kind with
  | condition => exact absurd hd hk
  | group => simp [(h.of_group hd).1, or_comm]
  | elementary => simp [(h.of_elementary hd).1]

theorem slots_push (w : Walk) (field : Field) (span : Span) :
    (w.push field span).slots = w.slots ++ [⟨field, w.cursor, span⟩] := rfl

theorem fields_snoc {w u : Walk} {slot : Slot} (h : u.slots = w.slots ++ [slot]) :
    u.fields = w.fields ++ [slot.field] := by
  simp only [fields, h, List.map_append, List.map_singleton]

/-- The last of some slots is the one that was added. -/
theorem getElem?_snoc {slots : List Slot} {slot s : Slot} {i : Nat}
    (h : (slots ++ [slot])[i]? = some s) :
    i < slots.length ∧ slots[i]? = some s ∨ i = slots.length ∧ s = slot := by
  rcases Nat.lt_or_ge i slots.length with hi | hi
  · exact .inl ⟨hi, by rwa [List.getElem?_append_left hi] at h⟩
  · rw [List.getElem?_append_right hi, List.getElem?_singleton] at h
    split at h
    · exact .inr ⟨by omega, (Option.some.inj h).symm⟩
    · cases h

/-! ## Runs -/

/-- What every step of a walk keeps. -/
structure StepInvariant (P : Walk → Prop) : Prop where
  closes : ∀ w u group slot next, w.Nested → Closes w u group slot next → P w → P u
  settles : ∀ w overlay outer, w.Nested → w.overlays = overlay :: outer → P w →
    P (w.closeOverlay overlay outer)
  report : ∀ w (d : Diagnostic), P w → P (w.report d)
  condition : ∀ w d line span i slot, d.kind = .condition → w.Nested →
    w.lastElementary = some i → w.slots[i]? = some slot → P w →
    P (w.push (conditionOf d line i slot) span)
  places : ∀ w u x target v slot, w.Nested → x.descriptor.kind ≠ .condition →
    nextScope? x.descriptor.level w.groups w.overlays = none → Places w u x target v slot →
    P w → P u

namespace StepInvariant

variable {P : Walk → Prop} {w : Walk}

theorem close (h : StepInvariant P) (hn : w.Nested) {level : Nat} {s : Scope}
    (hs : nextScope? level w.groups w.overlays = some s) (hw : P w) : P (w.close s) := by
  cases s with
  | group group outer =>
    obtain ⟨slot, next, hc⟩ := closes_close hn hs
    exact h.closes w _ group slot next hn hc hw
  | overlay overlay outer =>
    exact h.settles w overlay outer hn (nextScope?_eq_overlay_iff.1 hs).1 hw

theorem closeScopes (h : StepInvariant P) (hn : w.Nested) (level : Nat) (hw : P w) :
    P (w.closeScopes level) :=
  (closeScopes_induct (P := fun v => v.Nested ∧ P v)
    (fun _ _ hs hv => ⟨hv.1.close hs, h.close hv.1 hs hv.2⟩) ⟨hn, hw⟩).2

theorem addEntry (h : StepInvariant P) (hn : w.Nested) (rules : Rules) (entry : Entry)
    (hw : P w) : P (w.addEntry rules entry) := by
  obtain ⟨-, ha | ⟨d, -, ha⟩ | ⟨d, i, slot, hk, hl, hi, ha⟩⟩ | ⟨x, -, hk, ha⟩ :=
    addEntry_cases rules w entry
  · rwa [ha]
  · exact ha ▸ h.report w d hw
  · exact ha ▸ h.condition w d _ _ i slot hk hn hl hi hw
  · rw [ha]
    obtain ⟨target, v, slot, hp⟩ := places_declare rules (w.closeScopes x.descriptor.level) hk
    exact h.places _ _ x target v slot (hn.closeScopes _) hk (nextScope?_closeScopes _ w) hp
      (h.closeScopes hn _ hw)

theorem foldl (h : StepInvariant P) (hn : w.Nested) (rules : Rules) (entries : List Entry)
    (hw : P w) : P (entries.foldl (Walk.addEntry rules) w) := by
  induction entries generalizing w with
  | nil => exact hw
  | cons e rest ih => exact ih (hn.addEntry rules e) (h.addEntry hn rules e hw)

end StepInvariant

/-- What holds at the start and is kept by every step holds after a whole walk. -/
theorem run_steps {P : Walk → Prop} {rules : Rules} (hstart : P (start rules))
    (hcloses : ∀ w u group slot next, w.Nested → Closes w u group slot next → P w → P u)
    (hsettles : ∀ w overlay outer, w.Nested → w.overlays = overlay :: outer → P w →
      P (w.closeOverlay overlay outer))
    (hreport : ∀ w (d : Diagnostic), P w → P (w.report d))
    (hcondition : ∀ w d line span i slot, d.kind = .condition → w.Nested →
      w.lastElementary = some i → w.slots[i]? = some slot → P w →
      P (w.push (conditionOf d line i slot) span))
    (hplaces : ∀ w u x target v slot, w.Nested → x.descriptor.kind ≠ .condition →
      nextScope? x.descriptor.level w.groups w.overlays = none → Places w u x target v slot →
      P w → P u)
    (entries : List Entry) : P (run rules entries) := by
  have h : StepInvariant P := ⟨hcloses, hsettles, hreport, hcondition, hplaces⟩
  have hn : (start rules).Nested := Nested.start rules
  exact h.closeScopes (hn.foldl rules entries) 0 (h.foldl hn rules entries hstart)

/-- A whole walk leaves nothing open. -/
theorem groups_run (rules : Rules) (entries : List Entry) :
    (run rules entries).groups = [] ∧ (run rules entries).overlays = [] := by
  obtain ⟨hg, hv⟩ := nextScope?_eq_none_iff.1
    (nextScope?_closeScopes 0 (entries.foldl (addEntry rules) (start rules)))
  constructor
  · cases h : (run rules entries).groups with
    | nil => rfl
    | cons g rest => exact absurd (hg g (by rw [← run, h]; rfl)) (Nat.not_lt_zero _)
  · cases h : (run rules entries).overlays with
    | nil => rfl
    | cons v rest => exact absurd (hv v (by rw [← run, h]; rfl)) (Nat.not_lt_zero _)

end DataDivision.Record.Walk
