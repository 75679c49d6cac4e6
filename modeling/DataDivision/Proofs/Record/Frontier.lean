import DataDivision.Proofs.Layout.Sweep
import DataDivision.Proofs.Record.Placing
import Mathlib.Data.Nat.Basic
import Mathlib.Order.Basic

/-!
The frontier of a walk.

The cursor of a walk goes back at every redefinition and forward again when that is closed.  What
never goes back is the frontier, the furthest position that the cursor has been at or will go to
when the open redefinitions are closed.  Opening and closing a redefinition leave it where it is
(`Passed.frontier_rewinds`, `frontier_closeOverlay`); only items and groups that reach behind it
move it on (`Passed.frontier_places`, `Closes.frontier_eq`).
-/

namespace DataDivision.Record.Walk

/-- The position behind everything laid out so far. -/
def frontier (w : Walk) : Nat := w.overlays.foldr (fun overlay n => max overlay.resume n) w.cursor

theorem frontier_le_iff {w : Walk} {n : Nat} :
    w.frontier ≤ n ↔ w.cursor ≤ n ∧ ∀ overlay ∈ w.overlays, overlay.resume ≤ n := by
  unfold frontier
  induction w.overlays with
  | nil => simp
  | cons overlay rest ih =>
    rw [List.foldr_cons, Nat.max_le, ih, List.forall_mem_cons]
    exact and_left_comm

theorem cursor_le_frontier (w : Walk) : w.cursor ≤ w.frontier :=
  (frontier_le_iff.1 (Nat.le_refl w.frontier)).1

/-- With everything closed, the cursor stands at the frontier. -/
theorem frontier_of_overlays_nil {w : Walk} (h : w.overlays = []) : w.frontier = w.cursor := by
  simp [frontier, h]

theorem frontier_closeOverlay {w : Walk} {overlay : OpenOverlay} {outer : List OpenOverlay}
    (h : w.overlays = overlay :: outer) : (w.closeOverlay overlay outer).frontier = w.frontier := by
  refine eq_of_forall_ge_iff fun n => ?_
  rw [frontier_le_iff, frontier_le_iff, h, List.forall_mem_cons]
  simp only [closeOverlay, Nat.max_le, and_assoc]

variable {w u v : Walk}

/-- A cursor that moves on takes the frontier with it. -/
theorem frontier_of_cursor (ho : u.overlays = w.overlays) (hc : w.cursor ≤ u.cursor) :
    u.frontier = max w.frontier u.cursor := by
  refine eq_of_forall_ge_iff fun n => ?_
  rw [Nat.max_le, frontier_le_iff, frontier_le_iff, ho]
  constructor
  · rintro ⟨hu, hr⟩
    exact ⟨⟨Nat.le_trans hc hu, hr⟩, hu⟩
  · rintro ⟨⟨-, hr⟩, hu⟩
    exact ⟨hu, hr⟩

theorem Closes.frontier_eq {group : OpenGroup} {slot : Slot} {next : Nat}
    (h : Closes w u group slot next) : u.frontier = max w.frontier next := by
  have hc : w.cursor ≤ u.cursor := h.cursor_eq ▸ Nat.le_max_left _ _
  have := cursor_le_frontier w
  rw [frontier_of_cursor h.overlays_eq hc, h.cursor_eq]
  omega

/-! ## Positions behind the frontier -/

theorem shared_lookup_le {shared : List (Nat × Nat)} {n : Nat} (h : ∀ s ∈ shared, s.2 ≤ n)
    (base : Nat) : (shared.lookup base).getD 0 ≤ n := by
  cases hl : shared.lookup base with
  | none => exact Nat.zero_le n
  | some m =>
    obtain ⟨_, _, hsplit, -⟩ := List.lookup_eq_some_iff.1 hl
    exact h (base, m) (by simp [hsplit])

/-- Every position that a walk keeps is at the frontier or before, and every byte is before. -/
structure Passed (w : Walk) : Prop where
  start_le : ∀ slot ∈ w.slots, slot.field.startPosition ≤ w.frontier
  limit_le : ∀ slot ∈ w.slots, slot.limit ≤ w.frontier
  end_lt : ∀ slot ∈ w.slots, slot.field.HasBytes → slot.field.endPosition < w.frontier
  shared_le : ∀ stretch ∈ w.shared, stretch.2 ≤ w.frontier

namespace Passed

theorem start (rules : Rules) : (Walk.start rules).Passed := by
  constructor <;> simp [Walk.start]

/-- A redefinition goes back to a position that has been passed, and nothing passed is forgotten. -/
theorem frontier_rewinds (h : w.Passed) {d : Entry.Descriptor} {target : Option Nat}
    (hr : w.Rewinds d target v) : v.frontier = w.frontier := by
  cases hr with
  | stay => rfl
  | @back name i target base redefines named target_eq base_eq =>
    have htarget := h.limit_le target (List.mem_of_getElem? target_eq)
    have hbase := List.mem_of_getElem? base_eq
    have hlimit := h.limit_le base hbase
    have hstart := h.start_le base hbase
    have hshared := shared_lookup_le h.shared_le (baseOf w.fields i)
    obtain ⟨hcursor, hresume⟩ := frontier_le_iff.1 (Nat.le_refl w.frontier)
    refine Nat.le_antisymm (frontier_le_iff.2 ⟨hstart, ?_⟩) (frontier_le_iff.2 ?_)
    · refine List.forall_mem_cons.2 ⟨?_, hresume⟩
      simp only [Nat.max_le]
      exact ⟨⟨⟨hshared, htarget⟩, hlimit⟩, hcursor⟩
    · obtain ⟨-, hall⟩ := frontier_le_iff.1 (Nat.le_refl (w.enterOverlay d.level
        (baseOf w.fields i) target base).frontier)
      obtain ⟨hnew, hold⟩ := List.forall_mem_cons.1 hall
      simp only [Nat.max_le] at hnew
      exact ⟨hnew.2, hold⟩

/-- An item moves the frontier to the position behind it, if that is further. -/
theorem frontier_places (h : w.Passed) {x : Declaration} {target : Option Nat} {slot : Slot}
    (hp : Places w u x target v slot) : u.frontier = max w.frontier slot.limit := by
  rw [frontier_of_cursor hp.overlays_eq hp.le_cursor, h.frontier_rewinds hp.rewinds, hp.limit_eq]

/-- The positions kept are those before and those of a new slot, which are at the frontier or
before. -/
theorem snoc (h : w.Passed) {slot : Slot} (hs : u.slots = w.slots ++ [slot])
    (hsh : u.shared = w.shared) (hf : w.frontier ≤ u.frontier)
    (hstart : slot.field.startPosition ≤ u.frontier) (hlimit : slot.limit ≤ u.frontier)
    (hend : slot.field.HasBytes → slot.field.endPosition < u.frontier) : u.Passed := by
  have hmem : ∀ s ∈ u.slots, s ∈ w.slots ∨ s = slot := by
    intro s hm
    rwa [hs, List.mem_append, List.mem_singleton] at hm
  refine ⟨?_, ?_, ?_, fun x hx => Nat.le_trans (h.shared_le x (hsh ▸ hx)) hf⟩
  · intro s hm
    rcases hmem s hm with hm | rfl
    · exact Nat.le_trans (h.start_le s hm) hf
    · exact hstart
  · intro s hm
    rcases hmem s hm with hm | rfl
    · exact Nat.le_trans (h.limit_le s hm) hf
    · exact hlimit
  · intro s hm hb
    rcases hmem s hm with hm | rfl
    · exact Nat.lt_of_lt_of_le (h.end_lt s hm hb) hf
    · exact hend hb

end Passed

theorem stepInvariant_passed : StepInvariant Passed where
  closes w u group slot next hn hc h := by
    have hf : w.frontier ≤ u.frontier := hc.frontier_eq ▸ Nat.le_max_left _ _
    have hnext : next ≤ u.frontier := hc.frontier_eq ▸ Nat.le_max_right _ _
    have hmem : ∀ s ∈ u.slots, s ∈ w.slots ∨ s = slot.closed next := by
      intro s hs
      rw [hc.slots_eq] at hs
      exact List.mem_or_eq_of_mem_set hs
    refine ⟨?_, ?_, ?_, fun x hx => Nat.le_trans (h.shared_le x (hc.shared_eq ▸ hx)) hf⟩
    · intro s hs
      rcases hmem s hs with hs | rfl
      · exact Nat.le_trans (h.start_le s hs) hf
      · exact Nat.le_trans (h.start_le slot (List.mem_of_getElem? hc.slot_eq)) hf
    · intro s hs
      rcases hmem s hs with hs | rfl
      · exact Nat.le_trans (h.limit_le s hs) hf
      · exact hnext
    · intro s hs hb
      rcases hmem s hs with hs | rfl
      · exact Nat.lt_of_lt_of_le (h.end_lt s hs hb) hf
      · exact absurd (hc.isElementary.symm.trans hb.1) (by simp)
  settles w overlay outer _ ho h := by
    have hf := frontier_closeOverlay ho
    refine ⟨hf ▸ h.start_le, hf ▸ h.limit_le, hf ▸ h.end_lt, fun x hx => ?_⟩
    rcases List.mem_cons.1 hx with rfl | hx
    · exact cursor_le_frontier (w.closeOverlay overlay outer)
    · exact hf ▸ h.shared_le x hx
  report _ _ h := ⟨h.start_le, h.limit_le, h.end_lt, h.shared_le⟩
  condition w d line span i slot hk _ _ hi h := by
    have hne : ¬ (conditionOf d line i slot).HasBytes := by
      rintro ⟨he, -⟩
      have hc := Field.isCondition_of_isElementary he
      rw [isCondition_conditionOf hk] at hc
      cases hc
    exact h.snoc (slots_push w _ span) rfl (Nat.le_refl _)
      (h.start_le slot (List.mem_of_getElem? hi)) (cursor_le_frontier w) fun hb => absurd hb hne
  places w u x target v slot _ _ _ hp h := by
    have hf := h.frontier_places hp
    have hv := h.frontier_rewinds hp.rewinds
    have hcursor := cursor_le_frontier v
    have hlimit : slot.limit ≤ u.frontier := hf ▸ Nat.le_max_right _ _
    have hle : w.frontier ≤ u.frontier := hf ▸ Nat.le_max_left _ _
    refine h.snoc hp.slots_eq hp.shared_eq hle ?_ hlimit fun hb => ?_
    · rw [hp.start_eq]
      omega
    · have hbehind := hp.measured.limit_eq hb.1
      have hend := hp.measured.end_eq hb.1
      have hpos := hb.2
      rw [if_pos hpos] at hend
      omega

end DataDivision.Record.Walk
