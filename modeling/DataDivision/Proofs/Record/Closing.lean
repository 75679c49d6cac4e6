import DataDivision.Record.Basic

/-!
Closing scopes.

Which open group or redefinition closes next depends on the innermost of each alone (`nextScope?`),
and closing the deeper levels first never changes the order (`closeScopes_closeScopes`).  What every
single closing keeps, closing a whole level keeps (`closeScopes_induct`).
-/

namespace DataDivision.Record.Walk

/-! ## The next scope -/

/-- An open group or redefinition, with those around it. -/
inductive Scope
  | group (group : OpenGroup) (outer : List OpenGroup)
  | overlay (overlay : OpenOverlay) (outer : List OpenOverlay)

def close (w : Walk) : Scope → Walk
  | .group group outer => w.closeGroup group outer
  | .overlay overlay outer => w.closeOverlay overlay outer

/-- The innermost group, if it has the given level or a deeper one. -/
def nextGroup? (level : Nat) : List OpenGroup → Option Scope
  | [] => none
  | group :: outer => if level ≤ group.level then some (.group group outer) else none

/-- The scope of the given level or deeper that closes next. -/
def nextScope? (level : Nat) (groups : List OpenGroup) : List OpenOverlay → Option Scope
  | [] => nextGroup? level groups
  | overlay :: outer =>
    if overlayIsDue level overlay groups then some (.overlay overlay outer)
    else nextGroup? level groups

theorem closeScope?_eq (level : Nat) (w : Walk) :
    w.closeScope? level = (nextScope? level w.groups w.overlays).map w.close := by
  have hg : w.closeGroup? level = (nextGroup? level w.groups).map w.close := by
    unfold closeGroup? nextGroup?
    cases w.groups with
    | nil => rfl
    | cons group outer => by_cases h : level ≤ group.level <;> simp [h, close]
  unfold closeScope? nextScope?
  cases w.overlays with
  | nil => exact hg
  | cons overlay outer =>
    dsimp only
    cases overlayIsDue level overlay w.groups with
    | true => rfl
    | false => exact hg

/-- An overlay is due when it has the given level or a deeper one than that and every group. -/
theorem overlayIsDue_iff (level : Nat) (overlay : OpenOverlay) (groups : List OpenGroup) :
    overlayIsDue level overlay groups = true ↔
      level ≤ overlay.level ∧ ∀ group ∈ groups.head?, group.level < overlay.level := by
  cases groups with
  | nil => simp [overlayIsDue]
  | cons group outer =>
    simp only [overlayIsDue, Bool.and_eq_true, Bool.or_eq_true, decide_eq_true_eq, List.head?_cons,
      Option.mem_def, Option.some.injEq, forall_eq']
    omega

/-- A group closes next when it has the level and no redefinition is deeper. -/
theorem nextScope?_eq_group_iff {level : Nat} {groups outer : List OpenGroup}
    {overlays : List OpenOverlay} {group : OpenGroup} :
    nextScope? level groups overlays = some (.group group outer) ↔
      groups = group :: outer ∧ level ≤ group.level ∧
        ∀ overlay ∈ overlays.head?, overlay.level ≤ group.level := by
  have hg : nextGroup? level groups = some (.group group outer) ↔
      groups = group :: outer ∧ level ≤ group.level := by
    cases groups with
    | nil => simp [nextGroup?]
    | cons g rest =>
      by_cases h : level ≤ g.level
      · simp only [nextGroup?, h, ↓reduceIte, Option.some.injEq, Scope.group.injEq, List.cons.injEq]
        constructor
        · rintro ⟨rfl, rfl⟩
          exact ⟨⟨rfl, rfl⟩, h⟩
        · rintro ⟨⟨rfl, rfl⟩, -⟩
          exact ⟨rfl, rfl⟩
      · simp only [nextGroup?, h, ↓reduceIte, reduceCtorEq, false_iff, List.cons.injEq]
        rintro ⟨⟨rfl, -⟩, hl⟩
        exact h hl
  cases overlays with
  | nil => simpa [nextScope?] using hg
  | cons overlay rest =>
    have hd := overlayIsDue_iff level overlay groups
    simp only [nextScope?, List.head?_cons, Option.mem_def, Option.some.injEq, forall_eq']
    cases h : overlayIsDue level overlay groups with
    | true =>
      simp only [↓reduceIte, Option.some.injEq, reduceCtorEq, false_iff]
      rintro ⟨rfl, hl, hv⟩
      have := (hd.1 h).2 group rfl
      omega
    | false =>
      simp only [Bool.false_eq_true, ↓reduceIte, hg]
      constructor
      · rintro ⟨rfl, hl⟩
        refine ⟨rfl, hl, ?_⟩
        by_cases hv : overlay.level ≤ group.level
        · exact hv
        · have := hd.2 ⟨by omega, fun g hg => by cases hg; omega⟩
          simp [h] at this
      · rintro ⟨rfl, hl, -⟩
        exact ⟨rfl, hl⟩

/-- A redefinition closes next when it has the level and is deeper than the innermost group. -/
theorem nextScope?_eq_overlay_iff {level : Nat} {groups : List OpenGroup}
    {overlays outer : List OpenOverlay} {overlay : OpenOverlay} :
    nextScope? level groups overlays = some (.overlay overlay outer) ↔
      overlays = overlay :: outer ∧ level ≤ overlay.level ∧
        ∀ group ∈ groups.head?, group.level < overlay.level := by
  have hg : nextGroup? level groups ≠ some (.overlay overlay outer) := by
    cases groups with
    | nil => simp [nextGroup?]
    | cons g rest => by_cases h : level ≤ g.level <;> simp [nextGroup?, h]
  cases overlays with
  | nil => simpa [nextScope?] using hg
  | cons v rest =>
    have hd := overlayIsDue_iff level v groups
    simp only [nextScope?, List.cons.injEq]
    cases h : overlayIsDue level v groups with
    | true =>
      simp only [↓reduceIte, Option.some.injEq, Scope.overlay.injEq]
      constructor
      · rintro ⟨rfl, rfl⟩
        exact ⟨⟨rfl, rfl⟩, hd.1 h⟩
      · rintro ⟨⟨rfl, rfl⟩, -⟩
        exact ⟨rfl, rfl⟩
    | false =>
      simp only [Bool.false_eq_true, ↓reduceIte, hg, false_iff]
      rintro ⟨⟨rfl, rfl⟩, hv⟩
      have := hd.2 hv
      simp [h] at this

/-- Nothing closes when the innermost group and the innermost redefinition are shallower. -/
theorem nextScope?_eq_none_iff {level : Nat} {groups : List OpenGroup}
    {overlays : List OpenOverlay} :
    nextScope? level groups overlays = none ↔
      (∀ group ∈ groups.head?, group.level < level) ∧
        ∀ overlay ∈ overlays.head?, overlay.level < level := by
  have hg : nextGroup? level groups = none ↔ ∀ group ∈ groups.head?, group.level < level := by
    cases groups with
    | nil => simp [nextGroup?]
    | cons g rest => simp [nextGroup?]
  cases overlays with
  | nil => simpa [nextScope?] using hg
  | cons v rest =>
    have hd := overlayIsDue_iff level v groups
    simp only [nextScope?, List.head?_cons, Option.mem_def, Option.some.injEq, forall_eq']
    cases h : overlayIsDue level v groups with
    | true =>
      simp only [↓reduceIte, reduceCtorEq, false_iff]
      rintro ⟨-, hv⟩
      have := (hd.1 h).1
      omega
    | false =>
      simp only [Bool.false_eq_true, ↓reduceIte, hg]
      constructor
      · intro hl
        refine ⟨hl, ?_⟩
        by_cases hv : v.level < level
        · exact hv
        · have := hd.2 ⟨by omega, fun g hg' => by have := hl g hg'; omega⟩
          simp [h] at this
      · exact fun hl => hl.1

/-- A scope that is due at a level is due at every shallower one. -/
theorem nextScope?_of_le {level level' : Nat} {groups : List OpenGroup}
    {overlays : List OpenOverlay} {s : Scope} (h : level' ≤ level)
    (hs : nextScope? level groups overlays = some s) :
    nextScope? level' groups overlays = some s := by
  cases s with
  | group group outer =>
    obtain ⟨hg, hl, hv⟩ := nextScope?_eq_group_iff.1 hs
    exact nextScope?_eq_group_iff.2 ⟨hg, by omega, hv⟩
  | overlay overlay outer =>
    obtain ⟨hv, hl, hg⟩ := nextScope?_eq_overlay_iff.1 hs
    exact nextScope?_eq_overlay_iff.2 ⟨hv, by omega, hg⟩

/-! ## Closing a level -/

theorem closeScopes_of_none {level : Nat} {w : Walk}
    (h : nextScope? level w.groups w.overlays = none) : w.closeScopes level = w := by
  have hn : w.closeScope? level = none := by rw [closeScope?_eq, h]; rfl
  rw [closeScopes]
  split
  · rename_i w' hs
    rw [hn] at hs
    cases hs
  · rfl

theorem closeScopes_of_some {level : Nat} {w : Walk} {s : Scope}
    (h : nextScope? level w.groups w.overlays = some s) :
    w.closeScopes level = (w.close s).closeScopes level := by
  have hn : w.closeScope? level = some (w.close s) := by rw [closeScope?_eq, h]; rfl
  rw [closeScopes]
  split
  · rename_i w' hs
    rw [hn, Option.some.injEq] at hs
    rw [hs]
  · rename_i hs
    rw [hn] at hs
    cases hs

/-- What every single closing keeps, closing a level keeps. -/
theorem closeScopes_induct {P : Walk → Prop} {level : Nat}
    (hclose : ∀ w s, nextScope? level w.groups w.overlays = some s → P w → P (w.close s))
    {w : Walk} (h : P w) : P (w.closeScopes level) := by
  induction hd : w.depth using Nat.strongRecOn generalizing w with
  | _ n ih =>
    cases hs : nextScope? level w.groups w.overlays with
    | none => rwa [closeScopes_of_none hs]
    | some s =>
      rw [closeScopes_of_some hs]
      have hlt : (w.close s).depth < w.depth :=
        depth_closeScope? (by rw [closeScope?_eq, hs]; rfl)
      exact ih _ (hd ▸ hlt) (hclose w s hs h) rfl

/-- After closing a level nothing of it is open. -/
theorem nextScope?_closeScopes (level : Nat) (w : Walk) :
    nextScope? level (w.closeScopes level).groups (w.closeScopes level).overlays = none := by
  induction hd : w.depth using Nat.strongRecOn generalizing w with
  | _ n ih =>
    cases hs : nextScope? level w.groups w.overlays with
    | none => rwa [closeScopes_of_none hs]
    | some s =>
      rw [closeScopes_of_some hs]
      have hlt : (w.close s).depth < w.depth :=
        depth_closeScope? (by rw [closeScope?_eq, hs]; rfl)
      exact ih _ (hd ▸ hlt) _ rfl

/-- Closing a deeper level first makes no difference. -/
theorem closeScopes_closeScopes {level level' : Nat} (h : level' ≤ level) (w : Walk) :
    (w.closeScopes level).closeScopes level' = w.closeScopes level' := by
  refine closeScopes_induct (P := fun v => v.closeScopes level' = w.closeScopes level') ?_ rfl
  intro v s hs hv
  rw [← hv, closeScopes_of_some (nextScope?_of_le h hs)]

end DataDivision.Record.Walk
