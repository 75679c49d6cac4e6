/-!
Sets of code points as ascending lists of boundaries.

A code point is in the set when an odd number of boundaries is at or below it, so the boundaries
`b₀ < b₁ < b₂ < b₃ < ...` describe the half-open intervals `[b₀, b₁)`, `[b₂, b₃)`, ...  `combine` is
the one operation on such sets; union, intersection and difference are instances of it.
-/

namespace DataDivision.Text

/-- Membership in the intervals of an ascending boundary list. -/
def inside : List Nat → Nat → Bool
  | [], _ => false
  | b :: rest, n => decide (b ≤ n) && !inside rest n

/-- The boundary `b`, if membership changes there. -/
def change (before after : Bool) (b : Nat) (rest : List Nat) : List Nat :=
  if before = after then rest else b :: rest

/-- The boundaries at which `op` changes, for two sets of which `inA` and `inB` tell whether the
code points before all boundaries are members. -/
def combine (op : Bool → Bool → Bool) (inA inB : Bool) : List Nat → List Nat → List Nat
  | [], [] => []
  | x :: xs, [] => change (op inA inB) (op (!inA) inB) x (combine op (!inA) inB xs [])
  | [], y :: ys => change (op inA inB) (op inA (!inB)) y (combine op inA (!inB) [] ys)
  | x :: xs, y :: ys =>
    if x < y then change (op inA inB) (op (!inA) inB) x (combine op (!inA) inB xs (y :: ys))
    else if y < x then change (op inA inB) (op inA (!inB)) y (combine op inA (!inB) (x :: xs) ys)
    else change (op inA inB) (op (!inA) (!inB)) x (combine op (!inA) (!inB) xs ys)
termination_by a b => a.length + b.length

def union (a b : List Nat) : List Nat := combine or false false a b

def insert (bounds : List Nat) (n : Nat) : List Nat := union bounds [n, n + 1]

/-! ## Membership -/

theorem inside_of_lt {bounds : List Nat} {n : Nat} (h : ∀ b ∈ bounds, n < b) :
    inside bounds n = false := by
  cases bounds with
  | nil => rfl
  | cons b rest =>
    have : ¬ b ≤ n := Nat.not_le.2 (h b (by simp))
    simp [inside, this]

theorem mem_change {before after : Bool} {b m : Nat} {rest : List Nat}
    (h : m ∈ change before after b rest) : m = b ∨ m ∈ rest := by
  unfold change at h
  split at h
  · exact Or.inr h
  · simpa using h

/-- Every boundary of a combination is a boundary of one of the two sets. -/
theorem mem_combine {op : Bool → Bool → Bool} {inA inB : Bool} {a b : List Nat} {m : Nat}
    (h : m ∈ combine op inA inB a b) : m ∈ a ∨ m ∈ b := by
  fun_induction combine op inA inB a b with
  | case1 => simp at h
  | case2 inA inB x xs ih =>
    rcases mem_change h with rfl | h
    · simp
    · rcases ih h with h | h
      · simp [h]
      · simp at h
  | case3 inA inB y ys ih =>
    rcases mem_change h with rfl | h
    · simp
    · rcases ih h with h | h
      · simp at h
      · simp [h]
  | case4 inA inB x xs y ys hxy ih =>
    rcases mem_change h with rfl | h
    · simp
    · rcases ih h with h | h
      · simp [h]
      · exact Or.inr h
  | case5 inA inB x xs y ys hxy hyx ih =>
    rcases mem_change h with rfl | h
    · simp
    · rcases ih h with h | h
      · exact Or.inl h
      · simp [h]
  | case6 inA inB x xs y ys hxy hyx ih =>
    rcases mem_change h with rfl | h
    · simp
    · rcases ih h with h | h
      · simp [h]
      · simp [h]

theorem inside_change {before after : Bool} {b n : Nat} {rest : List Nat} (h : b ≤ n) :
    (before != inside (change before after b rest) n) = (after != inside rest n) := by
  unfold change
  split
  · rename_i heq
    rw [heq]
  · cases before <;> cases after <;> simp_all [inside]

theorem bne_inside_cons {inA : Bool} {x n : Nat} {xs : List Nat} (h : x ≤ n) :
    (inA != inside (x :: xs) n) = ((!inA) != inside xs n) := by
  cases inA <;> simp [inside, h]

theorem lt_of_lt_head {x n : Nat} {xs : List Nat} (hx : n < x) (h : (x :: xs).Pairwise (· < ·)) :
    ∀ m ∈ x :: xs, n < m := by
  intro m hm
  rcases List.mem_cons.1 hm with rfl | hm
  · exact hx
  · exact Nat.lt_trans hx (List.rel_of_pairwise_cons h hm)

/-- Before all boundaries nothing has changed. -/
theorem inside_change_of_lt {op : Bool → Bool → Bool} {before after inA inB : Bool} {m n : Nat}
    {a b : List Nat} (hm : n < m) (ha : ∀ k ∈ a, n < k) (hb : ∀ k ∈ b, n < k) :
    inside (change before after m (combine op inA inB a b)) n = false := by
  refine inside_of_lt fun k hk => ?_
  rcases mem_change hk with rfl | hk
  · exact hm
  · exact (mem_combine hk).elim (ha k) (hb k)

/-- A combination holds the code points of which `op` says so. -/
theorem inside_combine (op : Bool → Bool → Bool) (inA inB : Bool) {a b : List Nat} (n : Nat)
    (ha : a.Pairwise (· < ·)) (hb : b.Pairwise (· < ·)) :
    (op inA inB != inside (combine op inA inB a b) n) =
      op (inA != inside a n) (inB != inside b n) := by
  fun_induction combine op inA inB a b with
  | case1 => simp [inside]
  | case2 inA inB x xs ih =>
    by_cases h : x ≤ n
    · rw [inside_change h, bne_inside_cons h]
      exact ih (List.Pairwise.of_cons ha) hb
    · have hxs := lt_of_lt_head (Nat.not_le.1 h) ha
      rw [inside_of_lt hxs, inside_change_of_lt (Nat.not_le.1 h) (fun k hk => hxs k (by simp [hk]))
        (by simp)]
      simp [inside]
  | case3 inA inB y ys ih =>
    by_cases h : y ≤ n
    · rw [inside_change h, bne_inside_cons h]
      exact ih ha (List.Pairwise.of_cons hb)
    · have hys := lt_of_lt_head (Nat.not_le.1 h) hb
      rw [inside_of_lt hys, inside_change_of_lt (Nat.not_le.1 h) (by simp)
        (fun k hk => hys k (by simp [hk]))]
      simp [inside]
  | case4 inA inB x xs y ys hxy ih =>
    by_cases h : x ≤ n
    · rw [inside_change h, bne_inside_cons h]
      exact ih (List.Pairwise.of_cons ha) hb
    · have hxs := lt_of_lt_head (Nat.not_le.1 h) ha
      have hys := lt_of_lt_head (Nat.lt_trans (Nat.not_le.1 h) hxy) hb
      rw [inside_of_lt hxs, inside_of_lt hys,
        inside_change_of_lt (Nat.not_le.1 h) (fun k hk => hxs k (by simp [hk])) hys]
      simp
  | case5 inA inB x xs y ys hxy hyx ih =>
    by_cases h : y ≤ n
    · rw [inside_change h, bne_inside_cons h]
      exact ih ha (List.Pairwise.of_cons hb)
    · have hxs := lt_of_lt_head (Nat.lt_trans (Nat.not_le.1 h) hyx) ha
      have hys := lt_of_lt_head (Nat.not_le.1 h) hb
      rw [inside_of_lt hxs, inside_of_lt hys,
        inside_change_of_lt (Nat.not_le.1 h) hxs (fun k hk => hys k (by simp [hk]))]
      simp
  | case6 inA inB x xs y ys hxy hyx ih =>
    have hEq : x = y := by omega
    subst hEq
    by_cases h : x ≤ n
    · rw [inside_change h, bne_inside_cons h, bne_inside_cons h]
      exact ih (List.Pairwise.of_cons ha) (List.Pairwise.of_cons hb)
    · have hxs := lt_of_lt_head (Nat.not_le.1 h) ha
      have hys := lt_of_lt_head (Nat.not_le.1 h) hb
      rw [inside_of_lt hxs, inside_of_lt hys, inside_change_of_lt (Nat.not_le.1 h)
        (fun k hk => hxs k (by simp [hk])) (fun k hk => hys k (by simp [hk]))]
      simp

end DataDivision.Text
