import DataDivision.Proofs.Record.Steps

/-!
Links between fields.

A field's parent and its redefined field are set when the field is added and never change, and they
lead back to earlier fields.  So the groups around a field, the base of its storage, and the field
that a name refers to stay the same when other fields are added behind.
-/

namespace DataDivision.Record

/-! ## Following links -/

theorem mem_chain_self (next : Nat → Option Nat) (i : Nat) : i ∈ chain next i := by
  rw [chain]
  exact List.mem_cons_self

theorem mem_chain_of_next {next : Nat → Option Nat} {i j k : Nat} (hi : next i = some j)
    (hj : j < i) (hk : k ∈ chain next j) : k ∈ chain next i := by
  rw [chain, hi]
  simp only [hj, ↓reduceIte]
  exact List.mem_cons_of_mem _ hk

/-- Where links lead depends only on the links up to there. -/
theorem chain_congr {next next' : Nat → Option Nat} {i : Nat}
    (h : ∀ j, j ≤ i → next j = next' j) : chain next i = chain next' i := by
  induction i using Nat.strongRecOn with
  | _ i ih =>
    rw [chain, chain, h i (Nat.le_refl _)]
    cases next' i with
    | none => rfl
    | some j =>
      dsimp only
      split
      · rename_i hj
        rw [ih j hj fun k hk => h k (by omega)]
      · rfl

theorem chainEnd_congr {next next' : Nat → Option Nat} {i : Nat}
    (h : ∀ j, j ≤ i → next j = next' j) : chainEnd next i = chainEnd next' i := by
  induction i using Nat.strongRecOn with
  | _ i ih =>
    rw [chainEnd, chainEnd, h i (Nat.le_refl _)]
    cases next' i with
    | none => rfl
    | some j =>
      dsimp only
      split
      · rename_i hj
        exact ih j hj fun k hk => h k (by omega)
      · rfl

/-- Following a link upwards and its own links gives a part of one chain. -/
theorem mem_chain_trans {next : Nat → Option Nat} {i j k : Nat} (hj : j ∈ chain next i)
    (hk : k ∈ chain next j) : k ∈ chain next i := by
  induction i using Nat.strongRecOn with
  | _ i ih =>
    rw [chain] at hj
    rcases List.mem_cons.1 hj with rfl | hj
    · exact hk
    · cases hn : next i with
      | none => simp [hn] at hj
      | some m =>
        simp only [hn] at hj
        split at hj
        · rename_i hm
          exact mem_chain_of_next hn hm (ih m hm hj)
        · cases hj

/-! ## Equal links -/

/-- Some slots have the links of the first ones of others. -/
def LinksKept (slots slots' : List Slot) : Prop :=
  ∀ (i : Nat) (slot : Slot), slots[i]? = some slot → ∃ slot' : Slot, slots'[i]? = some slot' ∧
    slot'.field.parent = slot.field.parent ∧
    slot'.field.redefinesTarget = slot.field.redefinesTarget

namespace LinksKept

variable {slots slots' slots'' : List Slot}

theorem refl (slots : List Slot) : LinksKept slots slots :=
  fun _ slot h => ⟨slot, h, rfl, rfl⟩

theorem trans (h : LinksKept slots slots') (h' : LinksKept slots' slots'') :
    LinksKept slots slots'' := by
  intro i slot hi
  obtain ⟨s, hs, hp, ht⟩ := h i slot hi
  obtain ⟨s', hs', hp', ht'⟩ := h' i s hs
  exact ⟨s', hs', hp'.trans hp, ht'.trans ht⟩

theorem append (slots more : List Slot) : LinksKept slots (slots ++ more) := by
  intro i slot hi
  obtain ⟨hlt, -⟩ := List.getElem?_eq_some_iff.1 hi
  exact ⟨slot, by rwa [List.getElem?_append_left hlt], rfl, rfl⟩

/-- Closing a group keeps its links. -/
theorem set_closed {i : Nat} {slot : Slot} (hi : slots[i]? = some slot) (next : Nat) :
    LinksKept slots (slots.set i (slot.closed next)) := by
  obtain ⟨hlt, -⟩ := List.getElem?_eq_some_iff.1 hi
  intro j t hj
  by_cases he : i = j
  · subst he
    rw [hi] at hj
    cases hj
    exact ⟨slot.closed next, by rw [List.getElem?_set_self hlt], rfl, rfl⟩
  · exact ⟨t, by rwa [List.getElem?_set_ne he], rfl, rfl⟩

theorem parentOf_eq (h : LinksKept slots slots') {i : Nat} (hi : i < slots.length) :
    parentOf (slots'.map (·.field)) i = parentOf (slots.map (·.field)) i := by
  obtain ⟨s, hs, hp, -⟩ := h i _ (List.getElem?_eq_getElem hi)
  simp [parentOf, hs, hp, List.getElem?_eq_getElem hi]

theorem targetOf_eq (h : LinksKept slots slots') {i : Nat} (hi : i < slots.length) :
    targetOf (slots'.map (·.field)) i = targetOf (slots.map (·.field)) i := by
  obtain ⟨s, hs, -, ht⟩ := h i _ (List.getElem?_eq_getElem hi)
  simp [targetOf, hs, ht, List.getElem?_eq_getElem hi]

/-- The groups around a field stay the same. -/
theorem chain_eq (h : LinksKept slots slots') {i : Nat} (hi : i < slots.length) :
    chain (parentOf (slots'.map (·.field))) i = chain (parentOf (slots.map (·.field))) i :=
  chain_congr fun _ hj => h.parentOf_eq (Nat.lt_of_le_of_lt hj hi)

/-- The base of the storage of a field stays the same. -/
theorem baseOf_eq (h : LinksKept slots slots') {i : Nat} (hi : i < slots.length) :
    baseOf (slots'.map (·.field)) i = baseOf (slots.map (·.field)) i :=
  chainEnd_congr fun _ hj => h.targetOf_eq (Nat.lt_of_le_of_lt hj hi)

end LinksKept

/-- A field that redefines nothing is the base of its own storage. -/
theorem baseOf_of_target_none {fields : List Field} {i : Nat} (h : targetOf fields i = none) :
    baseOf fields i = i := by
  rw [baseOf, chainEnd, h]

/-- A field that redefines another one has the same base as that. -/
theorem baseOf_of_target_some {fields : List Field} {i j : Nat} (h : targetOf fields i = some j)
    (hj : j < i) : baseOf fields i = baseOf fields j := by
  rw [baseOf, chainEnd, h]
  simp only [hj, ↓reduceIte]
  rfl

/-! ## Names -/

/-- The latest of some fields with the given name that is no condition name. -/
def latestNamed (fields : List Field) (name : String) : Option Nat :=
  (fields.zipIdx.reverse.find? fun (f, _) =>
    !f.isCondition && Text.sameIgnoringCase f.name name).map (·.2)

theorem target?_eq (w : Walk) (name : String) : w.target? name = latestNamed w.fields name := rfl

theorem latestNamed_append (fields : List Field) (f : Field) (name : String) :
    latestNamed (fields ++ [f]) name =
      if f.isCondition = false ∧ Text.sameIgnoringCase f.name name = true then some fields.length
      else latestNamed fields name := by
  unfold latestNamed
  rw [List.zipIdx_append, List.reverse_append]
  simp only [List.zipIdx_singleton, List.reverse_singleton, List.singleton_append,
    List.find?_cons]
  cases f.isCondition <;> cases Text.sameIgnoringCase f.name name <;> simp

/-- Condition names are never referred to. -/
theorem latestNamed_append_conditions {fields more : List Field} (name : String)
    (h : ∀ f ∈ more, f.isCondition = true) :
    latestNamed (fields ++ more) name = latestNamed fields name := by
  induction more generalizing fields with
  | nil => rw [List.append_nil]
  | cons f rest ih =>
    rw [List.append_cons, ih fun g hg => h g (List.mem_cons_of_mem _ hg), latestNamed_append]
    simp [h f List.mem_cons_self]

/-- Only names and roles of fields matter for what a name refers to. -/
theorem latestNamed_congr {fields fields' : List Field} (name : String)
    (h : fields.map (fun f => (f.isCondition, f.name)) =
      fields'.map fun f => (f.isCondition, f.name)) :
    latestNamed fields name = latestNamed fields' name := by
  have hview : ∀ fs : List Field, latestNamed fs name =
      ((fs.map fun f => (f.isCondition, f.name)).zipIdx.reverse.find? fun (f, _) =>
        !f.1 && Text.sameIgnoringCase f.2 name).map (·.2) := by
    intro fs
    unfold latestNamed
    rw [List.zipIdx_map, ← List.map_reverse, List.find?_map, Option.map_map]
    rfl
  rw [hview, hview, h]

end DataDivision.Record
