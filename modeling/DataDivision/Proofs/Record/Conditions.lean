import DataDivision.Proofs.Record.Nesting

/-!
Condition names in a walk.

Condition names and rejected entries take no part in the layout: they leave slots of their own
behind and nothing else that a later declaration depends on (`Trails`), and closing scopes before or
after them makes no difference.
-/

namespace DataDivision.Record.Walk

/-- The walk `v` has only condition names more than `w`, apart from the findings and the item that
condition names belong to. -/
structure Trails (cs : List Slot) (w v : Walk) : Prop where
  conditions : ∀ c ∈ cs, c.field.isCondition = true
  slots_eq : v.slots = w.slots ++ cs
  groups_eq : v.groups = w.groups
  overlays_eq : v.overlays = w.overlays
  shared_eq : v.shared = w.shared
  cursor_eq : v.cursor = w.cursor
  tooLarge_eq : v.tooLarge = w.tooLarge

namespace Trails

variable {w v : Walk} {cs : List Slot}

theorem refl (w : Walk) : Trails [] w w :=
  ⟨by simp, by simp, rfl, rfl, rfl, rfl, rfl⟩

/-- An entry that is no declaration adds at most a condition name. -/
theorem addEntry (h : Trails cs w v) (rules : Rules) {entry : Entry}
    (he : entry.declaration? = none) : ∃ cs', Trails cs' w (v.addEntry rules entry) := by
  obtain ⟨-, ha | ⟨d, -, ha⟩ | ⟨d, i, slot, hk, -, -, ha⟩⟩ | ⟨x, hx, -⟩ :=
    addEntry_cases rules v entry
  · exact ⟨cs, by rwa [ha]⟩
  · rw [ha]
    exact ⟨cs, h.conditions, h.slots_eq, h.groups_eq, h.overlays_eq, h.shared_eq, h.cursor_eq,
      h.tooLarge_eq⟩
  · rw [ha]
    refine ⟨cs ++ [⟨conditionOf d entry.line i slot, v.cursor, entry.span⟩], ?_, ?_, h.groups_eq,
      h.overlays_eq, h.shared_eq, h.cursor_eq, h.tooLarge_eq⟩
    · intro c hc
      rcases List.mem_append.1 hc with hc | hc
      · exact h.conditions c hc
      · rw [List.mem_singleton.1 hc]
        simp [conditionOf, Field.isCondition, Field.setExtent, kind_ofDescriptor, hk]
    · rw [push, h.slots_eq, List.append_assoc]
  · rw [he] at hx
    cases hx

theorem foldl (h : Trails cs w v) (rules : Rules) {entries : List Entry}
    (he : ∀ e ∈ entries, e.declaration? = none) :
    ∃ cs', Trails cs' w (entries.foldl (Walk.addEntry rules) v) := by
  induction entries generalizing cs v with
  | nil => exact ⟨cs, h⟩
  | cons e rest ih =>
    obtain ⟨cs', h'⟩ := h.addEntry rules (he e List.mem_cons_self)
    exact ih h' fun e' hm => he e' (List.mem_cons_of_mem _ hm)

/-- A position is bounded alike. -/
theorem bound (h : Trails cs w v) (next : Option Nat) (name : String) (span : Span) :
    (v.bound next name span).1 = (w.bound next name span).1 ∧
      Trails cs (w.bound next name span).2 (v.bound next name span).2 := by
  unfold Walk.bound
  cases next.filter (· ≤ Storage.maxRecordLength + 1) with
  | some n => exact ⟨rfl, h⟩
  | none =>
    refine ⟨rfl, ?_⟩
    dsimp only
    rw [h.tooLarge_eq]
    split
    · exact h
    · exact ⟨h.conditions, h.slots_eq, h.groups_eq, h.overlays_eq, h.shared_eq, h.cursor_eq, rfl⟩

theorem finishGroup (h : Trails cs w v) {index : Nat} {slot : Slot} (next : Nat)
    (outer : List OpenGroup) (hi : index < w.slots.length) :
    Trails cs (w.finishGroup index slot next outer) (v.finishGroup index slot next outer) := by
  refine ⟨h.conditions, ?_, rfl, h.overlays_eq, h.shared_eq, ?_, h.tooLarge_eq⟩
  · simp only [Walk.finishGroup, h.slots_eq, List.set_append_left _ _ hi]
  · simp only [Walk.finishGroup, h.cursor_eq]

theorem close (h : Trails cs w v) (hn : w.Nested) {level : Nat} {s : Scope}
    (hs : nextScope? level w.groups w.overlays = some s) : Trails cs (w.close s) (v.close s) := by
  cases s with
  | overlay overlay outer =>
    refine ⟨h.conditions, h.slots_eq, h.groups_eq, rfl, ?_, ?_, h.tooLarge_eq⟩
    · simp only [Walk.close, closeOverlay, h.shared_eq, h.cursor_eq]
    · simp only [Walk.close, closeOverlay, h.cursor_eq]
  | group group outer =>
    obtain ⟨slot, hi, -, -⟩ := hn.start_le_cursor hs
    have hlt : group.index < w.slots.length := (List.getElem?_eq_some_iff.1 hi).1
    have hi' : v.slots[group.index]? = some slot := by
      rwa [h.slots_eq, List.getElem?_append_left hlt]
    have hb : v.behindGroup? slot = w.behindGroup? slot := by
      simp only [behindGroup?, h.cursor_eq]
    rw [Walk.close, Walk.close, closeGroup_of_some outer hi, closeGroup_of_some outer hi', hb]
    obtain ⟨hnext, ht⟩ := h.bound (w.behindGroup? slot) slot.field.name group.span
    dsimp only
    rw [hnext]
    exact ht.finishGroup _ outer (by simpa using hlt)

theorem closeScopes (h : Trails cs w v) (hn : w.Nested) (level : Nat) :
    Trails cs (w.closeScopes level) (v.closeScopes level) := by
  induction hd : w.depth using Nat.strongRecOn generalizing w v with
  | _ n ih =>
    have hv : nextScope? level v.groups v.overlays = nextScope? level w.groups w.overlays := by
      rw [h.groups_eq, h.overlays_eq]
    cases hs : nextScope? level w.groups w.overlays with
    | none => rwa [closeScopes_of_none hs, closeScopes_of_none (hv.trans hs)]
    | some s =>
      rw [closeScopes_of_some hs, closeScopes_of_some (hv.trans hs)]
      have hlt : (w.close s).depth < w.depth :=
        depth_closeScope? (by rw [closeScope?_eq, hs]; rfl)
      exact ih _ (hd ▸ hlt) (h.close hn hs) (hn.close hs) rfl

end Trails

/-! ## Entries -/

/-- A declaration is added when everything of its level and deeper is closed. -/
theorem addEntry_of_declaration (rules : Rules) (w : Walk) {entry : Entry} {x : Declaration}
    (h : entry.declaration? = some x) :
    x.descriptor.kind ≠ .condition ∧
      w.addEntry rules entry = (w.closeScopes x.descriptor.level).declare rules x := by
  obtain ⟨hn, -⟩ | ⟨y, hy, hk, ha⟩ := addEntry_cases rules w entry
  · rw [h] at hn
    cases hn
  · rw [h] at hy
    cases hy
    exact ⟨hk, ha⟩

theorem Nested.closeScopes {w : Walk} (h : w.Nested) (level : Nat) :
    (w.closeScopes level).Nested :=
  closeScopes_induct (P := Nested) (fun _ _ hs hv => hv.close hs) h

theorem Nested.addEntry {w : Walk} (h : w.Nested) (rules : Rules) (entry : Entry) :
    (w.addEntry rules entry).Nested := by
  obtain ⟨-, ha | ⟨d, -, ha⟩ | ⟨d, i, slot, -, -, -, ha⟩⟩ | ⟨x, -, -, ha⟩ :=
    addEntry_cases rules w entry
  · rwa [ha]
  · exact ha ▸ h.report d
  · exact ha ▸ h.push _ _
  · rw [ha]
    exact (h.closeScopes _).declare rules x (nextScope?_closeScopes _ w)

theorem Nested.foldl {w : Walk} (h : w.Nested) (rules : Rules) (entries : List Entry) :
    (entries.foldl (Walk.addEntry rules) w).Nested := by
  induction entries generalizing w with
  | nil => exact h
  | cons e rest ih => exact ih (h.addEntry rules e)

/-- A walk that has overflowed stays so. -/
theorem tooLarge_addEntry {w : Walk} (rules : Rules) (entry : Entry) (h : w.tooLarge = true) :
    (w.addEntry rules entry).tooLarge = true := by
  obtain ⟨-, ha | ⟨d, -, ha⟩ | ⟨d, i, slot, -, -, -, ha⟩⟩ | ⟨x, -, -, ha⟩ :=
    addEntry_cases rules w entry
  · rwa [ha]
  · exact ha ▸ h
  · exact ha ▸ h
  · rw [ha]
    exact tooLarge_declare rules x (tooLarge_closeScopes _ h)

theorem tooLarge_foldl {w : Walk} (rules : Rules) (entries : List Entry) (h : w.tooLarge = true) :
    (entries.foldl (addEntry rules) w).tooLarge = true := by
  induction entries generalizing w with
  | nil => exact h
  | cons e rest ih => exact ih (tooLarge_addEntry rules e h)

end DataDivision.Record.Walk
