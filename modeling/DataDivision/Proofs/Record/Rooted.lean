import DataDivision.Proofs.Record.Arena

/-!
Indices in a walk.

Every index that a walk keeps is that of a data item: those of open groups, of the storage that is
laid out again, of the storage whose end is known, and of the item that condition names belong to
(`Rooted`).  Every step keeps this (`stepInvariant_rooted`).
-/

namespace DataDivision.Record

/-- The storage of a data item is that of a data item. -/
theorem IsLinked.isCondition_baseOf {fields : List Field} (h : IsLinked fields) {i : Nat}
    {f g : Field} (hi : fields[i]? = some f) (hf : f.isCondition = false)
    (hg : fields[baseOf fields i]? = some g) : g.isCondition = false := by
  induction i using Nat.strongRecOn generalizing f with
  | _ i ih =>
    have ht : targetOf fields i = f.redefinesTarget := by simp [targetOf, hi]
    cases hr : f.redefinesTarget with
    | none =>
      rw [baseOf_of_target_none (ht.trans hr), hi] at hg
      exact Option.some.inj hg ▸ hf
    | some t =>
      obtain ⟨hlt, t', ht', hc, -⟩ := (h i f hi).target t hr
      rw [baseOf_of_target_some (ht.trans hr) hlt] at hg
      exact ih t hlt ht' hc hg

namespace Walk

def HasData (w : Walk) (i : Nat) : Prop :=
  ∃ slot, w.slots[i]? = some slot ∧ slot.field.isCondition = false

theorem HasData.lt {w : Walk} {i : Nat} (h : w.HasData i) : i < w.slots.length := by
  obtain ⟨slot, hs, -⟩ := h
  exact (List.getElem?_eq_some_iff.1 hs).1

theorem HasData.append {w u : Walk} {i : Nat} {more : List Slot} (h : w.HasData i)
    (hu : u.slots = w.slots ++ more) : u.HasData i := by
  obtain ⟨slot, hs, hc⟩ := h
  exact ⟨slot, by rwa [hu, List.getElem?_append_left (List.getElem?_eq_some_iff.1 hs).1], hc⟩

theorem HasData.closes {w u : Walk} {i : Nat} {group : OpenGroup} {slot : Slot} {next : Nat}
    (h : w.HasData i) (hc : Closes w u group slot next) : u.HasData i := by
  obtain ⟨s, hs, hcond⟩ := h
  rcases hc.kept hs with ⟨rfl, hu⟩ | hu
  · exact ⟨_, hu, hcond⟩
  · exact ⟨s, hu, hcond⟩

/-- All indices in a walk are those of data items, and condition names redefine nothing. -/
structure Rooted (w : Walk) : Prop where
  linked : w.Linked
  overlay_base : ∀ overlay ∈ w.overlays, w.HasData overlay.base
  shared_base : ∀ x ∈ w.shared, w.HasData x.1
  condition_target : ∀ slot ∈ w.slots, slot.field.isCondition = true →
    slot.field.redefinesTarget = none

theorem rooted_start (rules : Rules) : (start rules).Rooted :=
  ⟨linked_start rules, by simp [start], by simp [start], by simp [start]⟩

namespace Rooted

variable {w u : Walk}

theorem closes (h : w.Rooted) {group : OpenGroup} {slot : Slot} {next : Nat}
    (hc : Closes w u group slot next) : u.Rooted := by
  refine ⟨h.linked.closes hc, fun v hv => ?_, fun x hx => ?_, fun s hs hcond => ?_⟩
  · exact (h.overlay_base v (hc.overlays_eq ▸ hv)).closes hc
  · exact (h.shared_base x (hc.shared_eq ▸ hx)).closes hc
  · obtain ⟨i, hi⟩ := List.mem_iff_getElem?.1 hs
    obtain ⟨-, rfl⟩ | ⟨-, hw⟩ := hc.getElem?_slots hi
    · exact absurd (hc.isCondition.symm.trans hcond) (by simp)
    · exact h.condition_target s (List.mem_of_getElem? hw) hcond

/-- Adding a slot at the end disturbs no index. -/
theorem snoc (h : w.Rooted) (hl : u.Linked) {slot : Slot} (hs : u.slots = w.slots ++ [slot])
    (hv : ∀ overlay ∈ u.overlays, w.HasData overlay.base) (hsh : u.shared = w.shared)
    (ht : slot.field.isCondition = true → slot.field.redefinesTarget = none) : u.Rooted := by
  refine ⟨hl, fun v hm => (hv v hm).append hs, fun x hx => (h.shared_base x (hsh ▸ hx)).append hs,
    fun s hm hcond => ?_⟩
  rw [hs, List.mem_append] at hm
  rcases hm with hm | hm
  · exact h.condition_target s hm hcond
  · obtain rfl := List.mem_singleton.1 hm
    exact ht hcond

theorem overlay_base_of_rewinds (h : w.Rooted) {d : Entry.Descriptor} {target : Option Nat}
    {v : Walk} (hv : w.Rewinds d target v) : ∀ overlay ∈ v.overlays, w.HasData overlay.base := by
  cases hv with
  | stay => exact h.overlay_base
  | @back name i target base _ named target_eq base_eq =>
    intro overlay hm
    rcases List.mem_cons.1 hm with rfl | hm
    · exact ⟨base, base_eq, h.linked.links.isCondition_baseOf
        (getElem?_fields.2 ⟨target, target_eq, rfl⟩) (isCondition_of_target? named target_eq)
        (getElem?_fields.2 ⟨base, base_eq, rfl⟩)⟩
    · exact h.overlay_base overlay hm

end Rooted

theorem stepInvariant_rooted : StepInvariant Rooted where
  closes _ _ _ _ _ _ hc h := h.closes hc
  settles w overlay outer _ ho h := by
    refine ⟨h.linked.of_eq rfl rfl rfl, fun v hv => ?_, fun x hx => ?_, h.condition_target⟩
    · exact h.overlay_base v (ho ▸ List.mem_cons_of_mem _ hv)
    · rcases List.mem_cons.1 hx with rfl | hx
      · exact h.overlay_base overlay (ho ▸ List.mem_cons_self)
      · exact h.shared_base x hx
  report _ _ h := ⟨h.linked.of_eq rfl rfl rfl, h.overlay_base, h.shared_base, h.condition_target⟩
  condition w d line span i slot hk hn hl hi h :=
    h.snoc (h.linked.condition hn line span hk hl hi) (slots_push w _ span) h.overlay_base rfl
      fun _ => redefinesTarget_ofDescriptor d line
  places w u x target v slot hn hk hs hp h := by
    refine h.snoc (h.linked.places hn hk hs hp) hp.slots_eq ?_ hp.shared_eq fun hc => ?_
    · rw [hp.overlays_eq]
      exact h.overlay_base_of_rewinds hp.rewinds
    · rw [Field.isCondition, hp.kind_eq, beq_iff_eq] at hc
      exact absurd hc hk

end Walk

end DataDivision.Record
