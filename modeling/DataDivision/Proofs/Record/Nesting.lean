import DataDivision.Proofs.Record.Steps

/-!
Open scopes.

The open groups and the open redefinitions are each strictly deeper than those around them, and the
cursor cannot stay before the start of an open group: where a redefinition inside the group has
moved it back, closing that redefinition moves it behind that start again.
-/

namespace DataDivision.Record.Walk

/-- What holds of the open scopes throughout a walk. -/
structure Nested (w : Walk) : Prop where
  group_levels : w.groups.Pairwise fun inner outer => outer.level < inner.level
  overlay_levels : w.overlays.Pairwise fun inner outer => outer.level < inner.level
  group_indices : w.groups.Pairwise fun inner outer => outer.index < inner.index
  /-- A group starts at the cursor or before, if all redefinitions inside it are closed first. -/
  grounded : ∀ group ∈ w.groups, ∃ slot, w.slots[group.index]? = some slot ∧
    slot.field.isGroup = true ∧ (slot.field.startPosition ≤ w.cursor ∨
      ∃ overlay ∈ w.overlays, group.level < overlay.level ∧
        slot.field.startPosition ≤ overlay.resume)

namespace Nested

variable {w : Walk}

theorem start (rules : Rules) : (Walk.start rules).Nested := by
  constructor <;> simp [Walk.start]

theorem report (d : Diagnostic) (h : w.Nested) : (w.report d).Nested :=
  ⟨h.group_levels, h.overlay_levels, h.group_indices, h.grounded⟩

theorem index_lt (h : w.Nested) {group : OpenGroup} (hg : group ∈ w.groups) :
    group.index < w.slots.length := by
  obtain ⟨slot, hs, -⟩ := h.grounded group hg
  exact (List.getElem?_eq_some_iff.1 hs).1

/-- A group that closes next starts at the cursor or before. -/
theorem start_le_cursor (h : w.Nested) {level : Nat} {group : OpenGroup}
    {outer : List OpenGroup}
    (hs : nextScope? level w.groups w.overlays = some (.group group outer)) :
    ∃ slot, w.slots[group.index]? = some slot ∧ slot.field.isGroup = true ∧
      slot.field.startPosition ≤ w.cursor := by
  obtain ⟨hg, -, hv⟩ := nextScope?_eq_group_iff.1 hs
  obtain ⟨slot, hi, hk, hc | ⟨overlay, ho, hl, -⟩⟩ := h.grounded group (by simp [hg])
  · exact ⟨slot, hi, hk, hc⟩
  · -- No redefinition is deeper than the innermost one, which is no deeper than the group.
    have hlevels := h.overlay_levels
    cases hov : w.overlays with
    | nil => simp [hov] at ho
    | cons top rest =>
      have htop := hv top (by simp [hov])
      rw [hov] at ho hlevels
      rcases List.mem_cons.1 ho with rfl | hr
      · omega
      · have := (List.pairwise_cons.1 hlevels).1 overlay hr
        omega

theorem finishGroup (h : w.Nested) {group : OpenGroup} {outer : List OpenGroup} (slot : Slot)
    (next : Nat) (hg : w.groups = group :: outer) :
    (w.finishGroup group.index slot next outer).Nested := by
  have hlevels := h.group_levels
  have hindices := h.group_indices
  rw [hg] at hlevels hindices
  refine ⟨(List.pairwise_cons.1 hlevels).2, h.overlay_levels, (List.pairwise_cons.1 hindices).2, ?_⟩
  intro g hm
  have hne : group.index ≠ g.index := by
    have := (List.pairwise_cons.1 hindices).1 g hm
    omega
  obtain ⟨s, hi, hk, hc⟩ := h.grounded g (hg ▸ List.mem_cons_of_mem _ hm)
  refine ⟨s, ?_, hk, ?_⟩
  · simpa [Walk.finishGroup, List.getElem?_set_ne hne] using hi
  · rcases hc with hc | hc
    · exact .inl (by simp only [Walk.finishGroup]; omega)
    · exact .inr hc

theorem closeOverlay (h : w.Nested) {overlay : OpenOverlay} {outer : List OpenOverlay}
    (ho : w.overlays = overlay :: outer) : (w.closeOverlay overlay outer).Nested := by
  have hlevels := h.overlay_levels
  rw [ho] at hlevels
  refine ⟨h.group_levels, (List.pairwise_cons.1 hlevels).2, h.group_indices, ?_⟩
  intro g hm
  obtain ⟨slot, hi, hk, hc | ⟨v, hv, hl, hr⟩⟩ := h.grounded g hm
  · exact ⟨slot, hi, hk, .inl (by simp only [Walk.closeOverlay]; omega)⟩
  · rw [ho] at hv
    rcases List.mem_cons.1 hv with rfl | hv
    · exact ⟨slot, hi, hk, .inl (by simp only [Walk.closeOverlay]; omega)⟩
    · exact ⟨slot, hi, hk, .inr ⟨v, hv, hl, hr⟩⟩

/-- Every open scope is shallower than a level at which nothing is left to close. -/
theorem levels_lt (h : w.Nested) {level : Nat}
    (hn : nextScope? level w.groups w.overlays = none) :
    (∀ group ∈ w.groups, group.level < level) ∧ ∀ overlay ∈ w.overlays, overlay.level < level := by
  obtain ⟨hg, hv⟩ := nextScope?_eq_none_iff.1 hn
  constructor
  · have hlevels := h.group_levels
    cases hgs : w.groups with
    | nil => simp
    | cons top rest =>
      rw [hgs] at hlevels hg
      have htop := hg top rfl
      intro g hm
      rcases List.mem_cons.1 hm with rfl | hm
      · exact htop
      · have := (List.pairwise_cons.1 hlevels).1 g hm
        omega
  · have hlevels := h.overlay_levels
    cases hvs : w.overlays with
    | nil => simp
    | cons top rest =>
      rw [hvs] at hlevels hv
      have htop := hv top rfl
      intro v hm
      rcases List.mem_cons.1 hm with rfl | hm
      · exact htop
      · have := (List.pairwise_cons.1 hlevels).1 v hm
        omega

theorem enterOverlay (h : w.Nested) {level : Nat}
    (hn : nextScope? level w.groups w.overlays = none) (base : Nat) (target baseSlot : Slot) :
    (w.enterOverlay level base target baseSlot).Nested := by
  obtain ⟨hg, hv⟩ := h.levels_lt hn
  refine ⟨h.group_levels, List.pairwise_cons.2 ⟨hv, h.overlay_levels⟩, h.group_indices, ?_⟩
  intro g hm
  obtain ⟨slot, hi, hk, hc | ⟨v, hm', hl, hr⟩⟩ := h.grounded g hm
  · refine ⟨slot, hi, hk, .inr ⟨_, List.mem_cons_self, hg g hm, ?_⟩⟩
    simp only
    omega
  · exact ⟨slot, hi, hk, .inr ⟨v, List.mem_cons_of_mem _ hm', hl, hr⟩⟩

/-- A redefinition opens an overlay or none. -/
theorem redefine (h : w.Nested) (rules : Rules) (d : Entry.Descriptor) (span : Span)
    (hn : nextScope? d.level w.groups w.overlays = none) :
    (w.redefine rules d span).2.Nested := by
  obtain ⟨v, rfl | ⟨e, -, rfl⟩, hr⟩ |
    ⟨v, _, _, _, _, rfl | ⟨e, -, rfl⟩, -, -, -, -, hr⟩ := redefine_cases rules d span w
  · exact hr ▸ h
  · exact hr ▸ h.report e
  · exact hr ▸ h.enterOverlay hn _ _ _
  · exact hr ▸ (h.report e).enterOverlay hn _ _ _

/-- Adding a slot at the end, and moving the cursor on, disturbs no open group. -/
theorem push (h : w.Nested) (field : Field) (span : Span) : (w.push field span).Nested := by
  refine ⟨h.group_levels, h.overlay_levels, h.group_indices, ?_⟩
  intro g hm
  obtain ⟨slot, hi, hk, hc⟩ := h.grounded g hm
  refine ⟨slot, ?_, hk, hc⟩
  simpa [Walk.push, List.getElem?_append_left (h.index_lt hm)] using hi

theorem advance (h : w.Nested) {next : Nat} (hn : w.cursor ≤ next) (last : Option Nat) :
    { w with cursor := next, lastElementary := last }.Nested := by
  refine ⟨h.group_levels, h.overlay_levels, h.group_indices, ?_⟩
  intro g hm
  obtain ⟨slot, hi, hk, hc | hc⟩ := h.grounded g hm
  · exact ⟨slot, hi, hk, .inl (Nat.le_trans hc hn)⟩
  · exact ⟨slot, hi, hk, .inr hc⟩

theorem addGroup (h : w.Nested) (d : Entry.Descriptor) (entry : Entry) {field : Field}
    (usage : Option String) (hf : field.isGroup = true) (hl : ∀ g ∈ w.groups, g.level < d.level) :
    (w.addGroup d entry field usage).Nested := by
  have hp := h.push (field.setExtent w.cursor w.cursor) entry.span
  refine ⟨List.pairwise_cons.2 ⟨hl, hp.group_levels⟩, hp.overlay_levels,
    List.pairwise_cons.2 ⟨fun g hm => h.index_lt hm, hp.group_indices⟩, ?_⟩
  intro g hm
  rcases List.mem_cons.1 hm with rfl | hm
  · refine ⟨⟨field.setExtent w.cursor w.cursor, w.cursor, entry.span⟩, ?_, hf, .inl ?_⟩
    · simp [Walk.addGroup, Walk.push]
    · exact Nat.le_refl _
  · exact hp.grounded g hm

/-- Only the slots, the open scopes and the cursor matter. -/
theorem of_eq {v : Walk} (h : w.Nested) (hs : v.slots = w.slots) (hg : v.groups = w.groups)
    (ho : v.overlays = w.overlays) (hc : v.cursor = w.cursor) : v.Nested := by
  refine ⟨hg ▸ h.group_levels, ho ▸ h.overlay_levels, hg ▸ h.group_indices, ?_⟩
  rw [hs, hg, ho, hc]
  exact h.grounded

theorem overflow (h : w.Nested) (name : String) (span : Span) : (w.overflow name span).Nested := by
  unfold Walk.overflow
  split
  · exact h
  · exact h.of_eq rfl rfl rfl rfl

/-- A bounded position changes nothing but the findings. -/
theorem bound (h : w.Nested) (next : Option Nat) (name : String) (span : Span) :
    (w.bound next name span).2.Nested := by
  obtain ⟨n, -, -, hb⟩ | ⟨-, hb⟩ := bound_cases w next name span
  · rwa [hb]
  · rw [hb]
    exact h.overflow name span

theorem close (h : w.Nested) {level : Nat} {s : Scope}
    (hs : nextScope? level w.groups w.overlays = some s) : (w.close s).Nested := by
  cases s with
  | group group outer =>
    obtain ⟨hg, -, -⟩ := nextScope?_eq_group_iff.1 hs
    obtain ⟨slot, hi, -, -⟩ := h.start_le_cursor hs
    rw [Walk.close, closeGroup_of_some outer hi]
    exact (h.bound _ _ _).finishGroup slot _ (by rw [groups_bound, hg])
  | overlay overlay outer => exact h.closeOverlay (nextScope?_eq_overlay_iff.1 hs).1

theorem resolveUsage (h : w.Nested) (rules : Rules) (usage : Option String) (name : String)
    (span : Span) : (w.resolveUsage rules usage name span).2.Nested := by
  obtain ⟨-, hw | ⟨d, -, hw⟩⟩ := resolveUsage_cases rules usage name span w
  · rwa [hw]
  · rw [hw]
    exact h.report d

theorem finishElementary (h : w.Nested) (field : Field) (span : Span) (next : Nat) :
    (w.finishElementary field span next).Nested := by
  have ha := h.advance (Nat.le_max_left w.cursor next) (some w.slots.length)
  exact (ha.push _ span).of_eq rfl rfl rfl rfl

theorem declare (h : w.Nested) (rules : Rules) (x : Declaration)
    (hn : nextScope? x.descriptor.level w.groups w.overlays = none) :
    (w.declare rules x).Nested := by
  have hr := h.redefine rules x.descriptor x.entry.span hn
  unfold Walk.declare
  dsimp only
  split
  · rename_i hk
    refine hr.addGroup x.descriptor x.entry _ ?_ ?_
    · simp [Field.isGroup, fieldOf, kind_ofDescriptor, hk]
    · simpa using (h.levels_lt hn).1
  · rw [addElementary_eq]
    exact ((hr.resolveUsage rules _ _ _).bound _ _ _).finishElementary _ _ _

end Nested

end DataDivision.Record.Walk
