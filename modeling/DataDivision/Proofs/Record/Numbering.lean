import DataDivision.Proofs.Record.Links
import DataDivision.Proofs.Record.Pruning

/-!
The numbers of the fields that stay.

A field that stays gets the number of those before it that stay as well (`Numbering`), so the fields
of a pruned record are those with a number, each at its number (`getElem?_prune`), and a link from
one field back to another still leads back.
-/

namespace DataDivision.Record

/-! ## Filtered lists -/

/-- The members of a filtered list, by their places in the whole list. -/
theorem getElem?_filter_iff {α : Type} {p : α → Bool} {l : List α} {k : Nat} {x : α} :
    (l.filter p)[k]? = some x ↔
      ∃ i, l[i]? = some x ∧ p x = true ∧ (l.take i).countP p = k := by
  induction l generalizing k with
  | nil => simp
  | cons a rest ih =>
    have hshift : (∃ i, (a :: rest)[i]? = some x ∧ p x = true ∧
          ((a :: rest).take i).countP p = k) ↔
        (a = x ∧ p x = true ∧ 0 = k) ∨ ∃ i, rest[i]? = some x ∧ p x = true ∧
          (rest.take i).countP p + (if p a then 1 else 0) = k := by
      constructor
      · rintro ⟨i, hi, hp, hc⟩
        cases i with
        | zero => exact .inl ⟨by simpa using hi, hp, by simpa using hc⟩
        | succ i => exact .inr ⟨i, by simpa using hi, hp, by simpa [List.countP_cons] using hc⟩
      · rintro (⟨rfl, hp, hk⟩ | ⟨i, hi, hp, hc⟩)
        · exact ⟨0, by simp, hp, by simpa using hk⟩
        · exact ⟨i + 1, by simpa using hi, hp, by simpa [List.countP_cons] using hc⟩
    rw [hshift]
    by_cases ha : p a = true
    · rw [List.filter_cons_of_pos ha]
      cases k with
      | zero =>
        simp only [ha, ↓reduceIte, List.getElem?_cons_zero, Option.some.injEq, and_true,
          Nat.add_one_ne_zero, and_false, exists_false, or_false]
        constructor
        · rintro rfl
          exact ⟨rfl, ha⟩
        · exact And.left
      | succ k =>
        simp only [ha, ↓reduceIte, List.getElem?_cons_succ, ih, Nat.add_right_cancel_iff]
        simp
    · rw [List.filter_cons_of_neg ha, ih]
      simp only [ha, Bool.false_eq_true, ↓reduceIte, Nat.add_zero]
      constructor
      · exact .inr
      · rintro (⟨rfl, hp, -⟩ | h)
        · exact absurd hp ha
        · exact h

theorem mem_indicesOf {fields : List Field} {p : Field → Bool} {j : Nat} :
    j ∈ indicesOf fields p ↔ ∃ g, fields[j]? = some g ∧ p g = true := by
  simp only [indicesOf, List.mem_map, List.mem_filter, Prod.exists, List.mem_zipIdx_iff_getElem?]
  constructor
  · rintro ⟨g, i, ⟨hg, hp⟩, rfl⟩
    exact ⟨g, hg, hp⟩
  · rintro ⟨g, hg, hp⟩
    exact ⟨g, j, ⟨hg, hp⟩, rfl⟩

theorem pairwise_indicesOf (fields : List Field) (p : Field → Bool) :
    (indicesOf fields p).Pairwise (· < ·) := by
  have hall : (fields.zipIdx.map (·.2)).Pairwise (· < ·) := by
    rw [List.zipIdx_map_snd]
    exact List.pairwise_lt_range'
  have hsub : (indicesOf fields p).Sublist (fields.zipIdx.map (·.2)) := List.filter_sublist.map _
  exact hall.sublist hsub

/-! ## Numbering -/

/-- The numbers given to some fields: each is that of the fields before that stay, and a field stays
if it is not dropped and describes no field that goes. -/
structure Numbering (dropped : Field → Bool) (fields : List Field) (numbers : List (Option Nat)) :
    Prop where
  length_eq : numbers.length = fields.length
  number_eq : ∀ i k, renumbered numbers i = some k → k = (numbers.take i).countP (·.isSome)
  isSome_iff : ∀ i f, fields[i]? = some f → (∀ h ∈ f.host, h < i) →
    ((renumbered numbers i).isSome = true ↔
      dropped f = false ∧ ∀ h ∈ f.host, (renumbered numbers h).isSome = true)

namespace Numbering

variable {dropped : Field → Bool} {fields : List Field} {numbers : List (Option Nat)}

theorem renumbered_append_of_lt {numbers more : List (Option Nat)} {i : Nat}
    (h : i < numbers.length) : renumbered (numbers ++ more) i = renumbered numbers i := by
  rw [renumbered, renumbered, List.getElem?_append_left h]

/-- One field more gets the next number, or none. -/
theorem snoc (h : Numbering dropped fields numbers) (f : Field) {number : Option Nat}
    (hk : ∀ k ∈ number, k = numbers.countP (·.isSome))
    (hs : number.isSome = true ↔
      dropped f = false ∧ ∀ h ∈ f.host, (renumbered numbers h).isSome = true) :
    Numbering dropped (fields ++ [f]) (numbers ++ [number]) := by
  have hlast : renumbered (numbers ++ [number]) numbers.length = number := by
    simp [renumbered]
  have hcases : ∀ {i : Nat}, i < (numbers ++ [number]).length →
      i < numbers.length ∨ i = numbers.length := by
    intro i hi
    rw [List.length_append, List.length_singleton] at hi
    omega
  refine ⟨by simp [h.length_eq], ?_, ?_⟩
  · intro i k hi
    have hlt : i < (numbers ++ [number]).length := by
      rw [renumbered, Option.bind_eq_some_iff] at hi
      obtain ⟨n, hn, -⟩ := hi
      exact (List.getElem?_eq_some_iff.1 hn).1
    rcases hcases hlt with hlt | rfl
    · rw [renumbered_append_of_lt hlt] at hi
      rw [List.take_append_of_le_length (Nat.le_of_lt hlt)]
      exact h.number_eq i k hi
    · rw [hlast] at hi
      rw [List.take_left]
      exact hk k hi
  · intro i g hg hh
    have hlt : i < (numbers ++ [number]).length := by
      have := (List.getElem?_eq_some_iff.1 hg).1
      simpa [h.length_eq] using this
    have hhost : ∀ j ∈ g.host, renumbered (numbers ++ [number]) j = renumbered numbers j := by
      intro j hj
      have := hh j hj
      exact renumbered_append_of_lt (by rcases hcases hlt with hlt | rfl <;> omega)
    have hiff : (∀ j ∈ g.host, (renumbered (numbers ++ [number]) j).isSome = true) ↔
        ∀ j ∈ g.host, (renumbered numbers j).isSome = true :=
      forall₂_congr fun j hj => by rw [hhost j hj]
    rw [hiff]
    rcases hcases hlt with hlt | rfl
    · rw [List.getElem?_append_left (h.length_eq ▸ hlt)] at hg
      rw [renumbered_append_of_lt hlt]
      exact h.isSome_iff i g hg hh
    · rw [h.length_eq, List.getElem?_concat_length, Option.some.injEq] at hg
      rw [hlast, ← hg]
      exact hs

theorem renumber (h : Numbering dropped fields numbers) (rest : List Field) :
    Numbering dropped (fields ++ rest)
      (renumber dropped numbers (numbers.countP (·.isSome)) rest) := by
  induction rest generalizing fields numbers with
  | nil => simpa [Record.renumber] using h
  | cons f rest ih =>
    have hstay : (!dropped f && f.host.all fun h => (numbers[h]?.bind id).isSome) = true ↔
        dropped f = false ∧ ∀ h ∈ f.host, (renumbered numbers h).isSome = true := by
      rw [Bool.and_eq_true, Bool.not_eq_true', Option.all_eq_true_iff_get]
      refine and_congr_right fun _ => ?_
      cases f.host <;> simp [renumbered]
    rw [Record.renumber, List.append_cons]
    split
    · rename_i hs
      have hsnoc : Numbering dropped (fields ++ [f])
          (numbers ++ [some (numbers.countP (·.isSome))]) :=
        h.snoc f (fun k hk => (Option.some.inj hk).symm) (by simpa using hstay.1 hs)
      have hcount : (numbers ++ [some (numbers.countP (·.isSome))]).countP (·.isSome) =
          numbers.countP (·.isSome) + 1 := by simp [List.countP_append]
      rw [← hcount]
      exact ih hsnoc
    · rename_i hs
      have hsnoc : Numbering dropped (fields ++ [f]) (numbers ++ [none]) :=
        h.snoc f (by simp) (by simpa using mt hstay.2 hs)
      have hcount : (numbers ++ [(none : Option Nat)]).countP (·.isSome) =
          numbers.countP (·.isSome) := by simp [List.countP_append]
      rw [← hcount]
      exact ih hsnoc

/-- Numbers grow with the fields. -/
theorem strictMono (h : Numbering dropped fields numbers) {i j k l : Nat}
    (hi : renumbered numbers i = some k) (hj : renumbered numbers j = some l) (hlt : i < j) :
    k < l := by
  have hi' : numbers[i]? = some (some k) := by
    simpa [renumbered, Option.bind_eq_some_iff] using hi
  rw [h.number_eq i k hi, h.number_eq j l hj]
  have htake : numbers.take (i + 1) = numbers.take i ++ [some k] := by
    rw [List.take_add_one, hi', Option.toList_some]
  have hsub : (numbers.take (i + 1)).Sublist (numbers.take j) :=
    (List.take_prefix_take_left hlt).sublist
  have hle := hsub.countP_le (p := (·.isSome))
  rw [htake] at hle
  simp only [List.countP_append, List.countP_singleton, Option.isSome_some, ↓reduceIte] at hle
  omega

theorem injective (h : Numbering dropped fields numbers) {i j k : Nat}
    (hi : renumbered numbers i = some k) (hj : renumbered numbers j = some k) : i = j := by
  rcases Nat.lt_trichotomy i j with hlt | rfl | hlt
  · exact absurd (h.strictMono hi hj hlt) (Nat.lt_irrefl k)
  · rfl
  · exact absurd (h.strictMono hj hi hlt) (Nat.lt_irrefl k)

end Numbering

/-- The new numbers of the fields of a record. -/
def numbersOf (rules : Rules) (fields : List Field) : List (Option Nat) :=
  renumber (isDropped rules.config.fieldProcessing) [] 0 fields

theorem numbering_numbersOf (rules : Rules) (fields : List Field) :
    Numbering (isDropped rules.config.fieldProcessing) fields (numbersOf rules fields) := by
  have hnil : Numbering (isDropped rules.config.fieldProcessing) [] [] :=
    ⟨rfl, by simp [renumbered], by simp⟩
  simpa [numbersOf] using hnil.renumber fields

/-! ## Pruned records -/

theorem indicesOf_linkDown {fields : List Field} {p : Field → Bool}
    (h : ∀ (f : Field) (children conditionNames : List Nat),
      p { f with children := children, conditionNames := conditionNames } = p f) :
    indicesOf (linkDown fields) p = indicesOf fields p := by
  have hmap : (linkDown fields).zipIdx = fields.zipIdx.map fun x : Field × Nat =>
      ({ x.1 with
        children := indicesOf fields fun g => g.parent == some x.2
        conditionNames := indicesOf fields fun g => g.host == some x.2 }, x.2) := by
    apply List.ext_getElem?
    intro i
    simp only [linkDown, List.getElem?_zipIdx, List.getElem?_map, List.getElem?_mapIdx,
      Option.map_map, Nat.zero_add]
    rfl
  unfold indicesOf
  rw [hmap, List.filter_map, List.map_map]
  congr 1
  refine List.filter_congr fun x _ => ?_
  exact h _ _ _

/-- What stands beside the numbers is filtered to what has a number, each at its number. -/
theorem Numbering.getElem?_filter_zip {dropped : Field → Bool} {fields others : List Field}
    {numbers : List (Option Nat)} (h : Numbering dropped fields numbers)
    (ho : others.length = fields.length) {k : Nat} {x : Field × Option Nat} :
    ((others.zip numbers).filter fun x => x.2.isSome)[k]? = some x ↔
      ∃ i, others[i]? = some x.1 ∧ renumbered numbers i = some k ∧ x.2 = some k := by
  rw [getElem?_filter_iff]
  refine exists_congr fun i => ?_
  have hcount : ((others.zip numbers).take i).countP (·.2.isSome) =
      (numbers.take i).countP (·.isSome) := by
    have hzip : (others.zip numbers).map Prod.snd = numbers :=
      List.map_snd_zip (Nat.le_of_eq (h.length_eq.trans ho.symm))
    rw [← hzip, ← List.map_take, List.countP_map, hzip]
    rfl
  rw [hcount, List.getElem?_zip_eq_some]
  constructor
  · rintro ⟨⟨hf, hx⟩, hsome, rfl⟩
    obtain ⟨m, hm⟩ := Option.isSome_iff_exists.1 hsome
    have hi : renumbered numbers i = some m := by simp [renumbered, hx, hm]
    rw [← h.number_eq i m hi]
    exact ⟨hf, hi, hm⟩
  · rintro ⟨hf, hi, hx⟩
    refine ⟨⟨hf, ?_⟩, by simp [hx], (h.number_eq i k hi).symm⟩
    rw [hx]
    simpa [renumbered, Option.bind_eq_some_iff] using hi

/-- A pruned record holds the fields with a number at their numbers, each with the fields that refer
to it. -/
theorem getElem?_prune {rules : Rules} {fields : List Field} {k : Nat} {f' : Field} :
    (prune rules fields)[k]? = some f' ↔
      ∃ i f, fields[i]? = some f ∧ renumbered (numbersOf rules fields) i = some k ∧
        f' = { relink rules fields (numbersOf rules fields) f with
          children := indicesOf (prune rules fields) fun g => g.parent == some k
          conditionNames := indicesOf (prune rules fields) fun g => g.host == some k } := by
  have hn := numbering_numbersOf rules fields
  have hlinks : ∀ p : Field → Bool, (∀ (f : Field) (children conditionNames : List Nat),
      p { f with children := children, conditionNames := conditionNames } = p f) →
      indicesOf (prune rules fields) p = indicesOf (((fields.zip (numbersOf rules fields)).filter
        fun x => x.2.isSome).map fun x => relink rules fields (numbersOf rules fields) x.1) p :=
    fun p hp => indicesOf_linkDown hp
  rw [hlinks _ fun _ _ _ => rfl, hlinks _ fun _ _ _ => rfl]
  unfold prune linkDown
  rw [List.getElem?_mapIdx, List.getElem?_map, Option.map_map, Option.map_eq_some_iff]
  constructor
  · rintro ⟨x, hx, rfl⟩
    obtain ⟨i, hf, hi, -⟩ := (hn.getElem?_filter_zip rfl).1 hx
    exact ⟨i, x.1, hf, hi, rfl⟩
  · rintro ⟨i, f, hf, hi, rfl⟩
    exact ⟨(f, some k), (hn.getElem?_filter_zip rfl).2 ⟨i, hf, hi, rfl⟩, rfl⟩

/-- The group around a field that stays is one of those around it before. -/
theorem keptParent_eq_some {fields : List Field} {numbers : List (Option Nat)} {f : Field}
    {k : Nat} (h : keptParent fields numbers f = some k) :
    f.isCondition = false ∧ ∃ p q, f.parent = some p ∧ q ∈ chain (parentOf fields) p ∧
      renumbered numbers q = some k := by
  unfold keptParent at h
  split at h
  · cases h
  · rename_i hc
    obtain ⟨p, hp, hk⟩ := Option.bind_eq_some_iff.1 h
    obtain ⟨q, hq, hn⟩ := List.exists_of_findSome?_eq_some hk
    exact ⟨by simpa using hc, p, q, hp, hq, hn⟩

end DataDivision.Record
