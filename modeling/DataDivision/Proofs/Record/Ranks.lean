import DataDivision.Proofs.Record.Numbering

/-!
Ranks.

Where a list is filtered, a member gets as its new index the number of members before it that pass
(`rank`).  Ranks keep the order, so a link between two members that pass leads from the one's rank
to the other's, and following such links gives the ranks of what they led to (`chain_map`).
-/

namespace DataDivision.Record

/-- The number of members before an index that satisfy a condition. -/
def rank {α : Type} (p : α → Bool) (l : List α) (i : Nat) : Nat := (l.take i).countP p

section

variable {α : Type} {p q : α → Bool} {l : List α} {i j : Nat} {x y : α}

theorem rank_append_of_le (more : List α) (h : i ≤ l.length) :
    rank p (l ++ more) i = rank p l i := by
  rw [rank, List.take_append_of_le_length h, rank]

theorem rank_length (p : α → Bool) (l : List α) : rank p l l.length = (l.filter p).length := by
  rw [rank, List.take_length, List.countP_eq_length_filter]

theorem rank_map {β : Type} (f : β → α) (l : List β) (i : Nat) :
    rank p (l.map f) i = rank (p ∘ f) l i := by
  rw [rank, ← List.map_take, List.countP_map, rank]

theorem rank_congr (h : ∀ x ∈ l, p x = q x) (i : Nat) : rank p l i = rank q l i := by
  refine List.countP_congr fun x hx => ?_
  rw [h x (List.mem_of_mem_take hx)]

/-- The next member has the next rank, if the one before passes. -/
theorem rank_succ (hi : l[i]? = some x) :
    rank p l (i + 1) = rank p l i + if p x then 1 else 0 := by
  rw [rank, List.take_add_one, hi, Option.toList_some, List.countP_append,
    List.countP_singleton, rank]

theorem rank_mono (h : i ≤ j) : rank p l i ≤ rank p l j :=
  (List.take_prefix_take_left h).sublist.countP_le

theorem rank_lt_of_lt (hi : l[i]? = some x) (hx : p x = true) (h : i < j) :
    rank p l i < rank p l j := by
  have hle : rank p l (i + 1) ≤ rank p l j := rank_mono h
  rw [rank_succ hi, if_pos hx] at hle
  omega

/-- Ranks keep the order of members that pass. -/
theorem rank_lt_iff (hi : l[i]? = some x) (hx : p x = true) (hj : l[j]? = some y)
    (hy : p y = true) : rank p l i < rank p l j ↔ i < j := by
  refine ⟨fun h => ?_, rank_lt_of_lt hi hx⟩
  rcases Nat.lt_trichotomy i j with hlt | rfl | hlt
  · exact hlt
  · omega
  · have := rank_lt_of_lt hj hy hlt
    omega

/-- A member that passes stands at its rank in the filtered list. -/
theorem getElem?_filter_rank (hi : l[i]? = some x) (hx : p x = true) :
    (l.filter p)[rank p l i]? = some x :=
  getElem?_filter_iff.2 ⟨i, hi, hx, rfl⟩

/-- The members before a rank are those before the member that pass. -/
theorem take_rank_filter (p : α → Bool) (l : List α) (i : Nat) :
    (l.filter p).take (rank p l i) = (l.take i).filter p := by
  induction l generalizing i with
  | nil => simp [rank]
  | cons a rest ih =>
    cases i with
    | zero => simp [rank]
    | succ i =>
      have hi := ih i
      simp only [rank] at hi
      by_cases ha : p a = true
      · simp [rank, ha, hi]
      · simp [rank, ha, hi]

/-- Ranks in a filtered list count the members that pass both conditions. -/
theorem rank_filter (p q : α → Bool) (l : List α) (i : Nat) :
    rank q (l.filter p) (rank p l i) = rank (fun x => p x && q x) l i := by
  rw [rank, take_rank_filter, List.countP_filter, rank]
  exact List.countP_congr fun x _ => by rw [Bool.and_comm]

/-- A member that passes is replaced at its rank. -/
theorem filter_set (hi : l[i]? = some x) (hx : p x = true) (hy : p y = true) :
    (l.set i y).filter p = (l.filter p).set (rank p l i) y := by
  induction l generalizing i with
  | nil => cases hi
  | cons a rest ih =>
    cases i with
    | zero =>
      obtain rfl : a = x := by simpa using hi
      simp [rank, hx, hy]
    | succ i =>
      have hrest := ih (by simpa using hi)
      by_cases ha : p a = true
      · simpa [rank, ha] using hrest
      · simpa [rank, ha] using hrest

/-- Replacing a member by one that passes alike changes no rank. -/
theorem rank_set (hi : l[i]? = some x) (h : p x = p y) (j : Nat) :
    rank p (l.set i y) j = rank p l j := by
  have hmap : (l.set i y).map p = l.map p := by
    rw [List.map_set, ← h]
    refine List.ext_getElem? fun k => ?_
    by_cases hk : i = k
    · subst hk
      obtain ⟨hlt, -⟩ := List.getElem?_eq_some_iff.1 hi
      rw [List.getElem?_set_self (by simpa using hlt), List.getElem?_map, hi, Option.map_some]
    · rw [List.getElem?_set_ne hk]
  have hid : ∀ m : List α, rank p m j = rank id (m.map p) j := fun m =>
    (rank_map (p := id) p m j).symm
  rw [hid, hid, hmap]

theorem zipIdx_filter_append (p : α → Bool) (before l : List α) :
    (l.filter p).zipIdx (rank p (before ++ l) before.length) =
      ((l.zipIdx before.length).filter fun x => p x.1).map
        fun x => (x.1, rank p (before ++ l) x.2) := by
  induction l generalizing before with
  | nil => rfl
  | cons a rest ih =>
    have hrest := ih (before ++ [a])
    rw [← List.append_cons, List.length_append, List.length_singleton] at hrest
    have hnext := rank_succ (p := p) (l := before ++ a :: rest) (i := before.length) (x := a)
      (by simp)
    rw [List.zipIdx_cons]
    by_cases ha : p a = true
    · rw [if_pos ha] at hnext
      rw [List.filter_cons_of_pos ha, List.filter_cons_of_pos (by exact ha), List.zipIdx_cons,
        List.map_cons, ← hnext, hrest]
    · rw [if_neg ha] at hnext
      rw [List.filter_cons_of_neg ha, List.filter_cons_of_neg (by exact ha), ← hrest, hnext]
      rfl

/-- The members of a filtered list with their indices, by their indices in the whole list. -/
theorem zipIdx_filter (p : α → Bool) (l : List α) :
    (l.filter p).zipIdx = (l.zipIdx.filter fun x => p x.1).map fun x => (x.1, rank p l x.2) := by
  have h := zipIdx_filter_append p [] l
  rwa [List.nil_append] at h

end

/-! ## Following links -/

section

variable {next next' : Nat → Option Nat} {r : Nat → Nat} {P : Nat → Prop}

/-- Following the images of links gives the images of what the links lead to. -/
theorem chain_map (hP : ∀ i j, P i → next i = some j → P j)
    (hnext : ∀ i, P i → next' (r i) = (next i).map r)
    (hr : ∀ i j, P i → P j → (r i < r j ↔ i < j)) {i : Nat} (hi : P i) :
    chain next' (r i) = (chain next i).map r := by
  induction i using Nat.strongRecOn with
  | _ i ih =>
    rw [chain, chain, hnext i hi, List.map_cons]
    cases hn : next i with
    | none => rfl
    | some j =>
      have hj := hP i j hi hn
      simp only [Option.map_some, hr j i hj hi]
      split
      · rename_i hlt
        rw [ih j hlt hj]
      · rfl

/-- Where the images of links end is the image of where the links end. -/
theorem chainEnd_map (hP : ∀ i j, P i → next i = some j → P j)
    (hnext : ∀ i, P i → next' (r i) = (next i).map r)
    (hr : ∀ i j, P i → P j → (r i < r j ↔ i < j)) {i : Nat} (hi : P i) :
    chainEnd next' (r i) = r (chainEnd next i) := by
  induction i using Nat.strongRecOn with
  | _ i ih =>
    rw [chainEnd, chainEnd, hnext i hi]
    cases hn : next i with
    | none => rfl
    | some j =>
      have hj := hP i j hi hn
      simp only [Option.map_some, hr j i hj hi]
      split
      · rename_i hlt
        exact ih j hlt hj
      · rfl

end

end DataDivision.Record
