import DataDivision.Proofs.Record.Containment
import DataDivision.Proofs.Record.Hiding

/-!
The groups around a field, innermost first.

A chain of links goes back, so its indices decrease, and what is found first along it is found at
the latest index (`findSome?_chain_eq_some_iff`).  The parent of a field that stays is the latest
group around it that stays (`exists_parent_of_image`).
-/

namespace DataDivision.Record

section

variable {next : Nat → Option Nat} {i : Nat}

theorem chain_of_none (h : next i = none) : chain next i = [i] := by
  rw [chain, h]

theorem chain_of_some {j : Nat} (h : next i = some j) (hj : j < i) :
    chain next i = i :: chain next j := by
  rw [chain, h]
  simp only [hj, ↓reduceIte]

theorem pairwise_chain (next : Nat → Option Nat) (i : Nat) :
    (chain next i).Pairwise fun a b => b < a := by
  induction i using Nat.strongRecOn with
  | _ i ih =>
    rw [chain]
    split
    · split
      · rename_i j _ hj
        exact List.pairwise_cons.2 ⟨fun k hk => Nat.lt_of_le_of_lt (mem_chain_le hk) hj, ih j hj⟩
      · exact List.pairwise_singleton _ _
    · exact List.pairwise_singleton _ _

/-- What is found first along a chain is found at the latest index. -/
theorem findSome?_chain_eq_some_iff {α : Type} {g : Nat → Option α} {x : α} :
    (chain next i).findSome? g = some x ↔ ∃ j ∈ chain next i, g j = some x ∧
      ∀ k ∈ chain next i, (g k).isSome = true → k ≤ j := by
  have hdown := pairwise_chain next i
  generalize chain next i = indices at hdown ⊢
  induction indices with
  | nil => simp
  | cons a rest ih =>
    obtain ⟨hlt, hrest⟩ := List.pairwise_cons.1 hdown
    rw [List.findSome?_cons]
    cases ha : g a with
    | some y =>
      simp only [Option.some.injEq]
      constructor
      · rintro rfl
        refine ⟨a, List.mem_cons_self, ha, fun k hk _ => ?_⟩
        rcases List.mem_cons.1 hk with rfl | hk
        · exact Nat.le_refl _
        · exact Nat.le_of_lt (hlt k hk)
      · rintro ⟨j, hj, hx, hmax⟩
        have hle := hmax a List.mem_cons_self (by simp [ha])
        rcases List.mem_cons.1 hj with rfl | hj
        · exact Option.some.inj (ha.symm.trans hx)
        · have := hlt j hj
          omega
    | none =>
      have hne : ∀ k, (g k).isSome = true → k ≠ a := by
        rintro k hk rfl
        simp [ha] at hk
      simp only [ih hrest, List.mem_cons]
      constructor
      · rintro ⟨j, hj, hx, hmax⟩
        exact ⟨j, .inr hj, hx, fun k hk hs => hmax k (hk.resolve_left (hne k hs)) hs⟩
      · rintro ⟨j, hj, hx, hmax⟩
        exact ⟨j, hj.resolve_left (hne j (by simp [hx])), hx, fun k hk => hmax k (.inr hk)⟩

end

section

variable {fields : List Field} {a i : Nat}

theorem IsLinked.parent_lt (h : IsLinked fields) {p : Nat} (hp : parentOf fields i = some p) :
    p < i := by
  obtain ⟨f, hf, hp⟩ := Option.bind_eq_some_iff.1 hp
  exact ((h i f hf).parent p hp).1

/-- The groups around a field are those that its parent leads to. -/
theorem IsLinked.encloses_iff (h : IsLinked fields) :
    Encloses fields a i ↔ ∃ p, parentOf fields i = some p ∧ a ∈ chain (parentOf fields) p := by
  constructor
  · intro he
    induction he with
    | parent hp => exact ⟨_, hp, mem_chain_self _ _⟩
    | outer hp _ ih =>
      obtain ⟨o, ho, ha⟩ := ih
      exact ⟨_, hp, mem_chain_of_next ho (h.parent_lt ho) ha⟩
  · rintro ⟨p, hp, ha⟩
    exact .of_mem_chain hp ha

/-- Only overlays are assigned, so which fields stay is as before. -/
theorem image?_assignOverlays (processing : Rules.FieldProcessing) (fields : List Field) :
    image? processing (assignOverlays fields) = image? processing fields := by
  refine image?_congr (List.ext_getElem? fun i => ?_)
  rw [List.getElem?_map, List.getElem?_map, getElem?_assignOverlays, Option.map_map]
  rfl

theorem renumbered_assignOverlays (rules : Rules) (h : IsLinked fields) :
    renumbered (numbersOf rules (assignOverlays fields)) =
      image? rules.config.fieldProcessing fields :=
  (renumbered_eq_image? rules (isLinked_assignOverlays h)).trans (image?_assignOverlays _ _)

/-- A field that stays is at its image, and its parent is the image of the latest group around it
that stays. -/
theorem exists_parent_of_image (rules : Rules) (h : IsLinked fields) {k : Nat} {f : Field}
    (hi : fields[i]? = some f) (hc : f.isCondition = false)
    (hk : image? rules.config.fieldProcessing fields i = some k) :
    ∃ f', (prune rules (assignOverlays fields))[k]? = some f' ∧ ∀ p', f'.parent = some p' ↔
      ∃ p, Encloses fields p i ∧ image? rules.config.fieldProcessing fields p = some p' ∧
        ∀ q, Encloses fields q i → (image? rules.config.fieldProcessing fields q).isSome = true →
          q ≤ p := by
  have hnumbers := renumbered_assignOverlays rules h
  have hi' := (getElem?_assignOverlays fields i).trans (congrArg _ hi)
  refine ⟨_, getElem?_prune.2 ⟨i, _, hi', hnumbers ▸ hk, rfl⟩, fun p' => ?_⟩
  have hparent : parentOf fields i = f.parent := by simp [parentOf, hi]
  have hkept : keptParent (assignOverlays fields) (numbersOf rules (assignOverlays fields)) f =
      f.parent.bind fun p =>
        (chain (parentOf fields) p).findSome? (image? rules.config.fieldProcessing fields) := by
    simp only [keptParent, hc, Bool.false_eq_true, ↓reduceIte, hnumbers, parentOf_assignOverlays]
  have hparent : parentOf fields i = f.parent := by simp [parentOf, hi]
  have hrelinked : keptParent (assignOverlays fields) (numbersOf rules (assignOverlays fields))
      { f with overlays := overlaysOf fields (basesOf fields) i } = _ := hkept
  simp only [relink, hrelinked, h.encloses_iff, hparent]
  cases hp : f.parent with
  | none => simp
  | some p => simp [findSome?_chain_eq_some_iff]

end

end DataDivision.Record
