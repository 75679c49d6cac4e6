import DataDivision.Storage

/-!
Checked computations.

A function in the namespace `Checked` does what the function of the same name elsewhere does, step
by step, but it is `none` where the program would stop: an index is out of range, a text is cut
inside a character, or a sum or difference is no 64-bit number.  A loop that never ends is `none`,
too.  So a checked function that returns something never gets to such a place.

Here are the checked operations on numbers and lists, and what becomes of a traversal of a list of
which every step returns something.
-/

namespace DataDivision.Checked

/-- The difference, unless it is negative. -/
def sub (a b : Nat) : Option Nat := if b ≤ a then some (a - b) else none

theorem sub_eq {a b : Nat} (h : b ≤ a) : sub a b = some (a - b) := if_pos h

theorem add?_eq {a b : Nat} (h : a + b ≤ Text.maxWord64) : Storage.add? a b = some (a + b) :=
  if_pos h

/-- Changes the member at an index. -/
def modify {α : Type} (l : List α) (i : Nat) (f : α → α) : Option (List α) :=
  if i < l.length then some (l.modify i f) else none

theorem modify_eq {α : Type} {l : List α} {i : Nat} (h : i < l.length) (f : α → α) :
    modify l i f = some (l.modify i f) := if_pos h

section

variable {α β : Type} {l : List α}

theorem mapM_eq_some {f : α → Option β} {g : α → β} (h : ∀ a ∈ l, f a = some (g a)) :
    l.mapM f = some (l.map g) := by
  induction l with
  | nil => rfl
  | cons a l ih =>
    rw [List.mapM_cons, h a List.mem_cons_self, ih fun b hb => h b (List.mem_cons_of_mem _ hb)]
    rfl

theorem mapM_eq_filterMap {f : α → Option β} (h : ∀ a ∈ l, (f a).isSome) :
    l.mapM f = some (l.filterMap f) := by
  induction l with
  | nil => rfl
  | cons a l ih =>
    obtain ⟨b, hb⟩ := Option.isSome_iff_exists.1 (h a List.mem_cons_self)
    rw [List.mapM_cons, List.filterMap_cons_some hb, hb,
      ih fun c hc => h c (List.mem_cons_of_mem _ hc)]
    rfl

/-- The members of a list, found one after another by their indices. -/
theorem mapM_range_eq_some {f : Nat → Option α} (h : ∀ i, i < l.length → f i = l[i]?) :
    (List.range l.length).mapM f = some l := by
  have htake : ∀ n, n ≤ l.length → (List.range n).mapM f = some (l.take n) := by
    intro n hn
    induction n with
    | zero => rfl
    | succ n ih =>
      rw [List.range_succ, List.mapM_append, ih (Nat.le_of_lt hn), List.mapM_cons, h n hn,
        List.take_add_one, List.getElem?_eq_getElem hn]
      rfl
  simpa using htake l.length (Nat.le_refl _)

theorem filterM_map_eq_some {f : β → Option Bool} {g : α → β} {p : α → Bool}
    (h : ∀ a ∈ l, f (g a) = some (p a)) : (l.map g).filterM f = some ((l.filter p).map g) := by
  have haux : ∀ done, List.filterAuxM f (l.map g) done =
      some (((l.filter p).map g).reverse ++ done) := by
    induction l with
    | nil => exact fun done => rfl
    | cons a l ih =>
      intro done
      have hrest := ih fun b hb => h b (List.mem_cons_of_mem _ hb)
      rw [List.map_cons, List.filterAuxM, h a List.mem_cons_self]
      cases hp : p a with
      | true => simp [hrest, hp]
      | false => simp [hrest, hp]
  rw [List.filterM, haux]
  simp

theorem filterM_eq_some {f : α → Option Bool} {p : α → Bool} (h : ∀ a ∈ l, f a = some (p a)) :
    l.filterM f = some (l.filter p) := by
  simpa using filterM_map_eq_some (g := id) h

theorem anyM_eq_some {f : α → Option Bool} {p : α → Bool} (h : ∀ a ∈ l, f a = some (p a)) :
    l.anyM f = some (l.any p) := by
  induction l with
  | nil => rfl
  | cons a l ih =>
    rw [List.anyM, h a List.mem_cons_self, ih fun b hb => h b (List.mem_cons_of_mem _ hb)]
    cases hp : p a <;> simp [hp]

end

end DataDivision.Checked
