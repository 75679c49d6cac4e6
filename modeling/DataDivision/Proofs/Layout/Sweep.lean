import DataDivision.Layout.Overlap

/-!
Overlaps.

The sweep forgets fields that end before the next one starts.  In the order of first bytes it
forgets no field that a later one meets (`sweep_eq_pairs`), so it finds nothing exactly when no two
elementary fields share a byte without sharing storage (`find_eq_nil_iff`).
-/

namespace DataDivision

/-- An elementary field that has bytes. -/
def Field.HasBytes (f : Field) : Prop := f.isElementary = true ∧ 0 < f.storageLength

/-- Some byte belongs to both fields. -/
def Field.Meets (f g : Field) : Prop :=
  ∃ p, f.startPosition ≤ p ∧ p ≤ f.endPosition ∧ g.startPosition ≤ p ∧ p ≤ g.endPosition

/-- Two elementary fields share a byte without being layouts of one storage. -/
def Field.Clashes (f g : Field) : Prop :=
  f.HasBytes ∧ g.HasBytes ∧ f.Meets g ∧ f.sharesStorageWith g = false

theorem Field.Meets.symm {f g : Field} (h : f.Meets g) : g.Meets f := by
  obtain ⟨p, hf, hf', hg, hg'⟩ := h
  exact ⟨p, hg, hg', hf, hf'⟩

theorem Field.sharesStorageWith_iff (f g : Field) :
    f.sharesStorageWith g = true ↔
      ∃ s ∈ f.overlays, ∃ t ∈ g.overlays, s.base = t.base ∧ s.alternative ≠ t.alternative := by
  simp [sharesStorageWith, OverlaySlot.isAlternativeOf]

theorem Field.sharesStorageWith_comm (f g : Field) :
    f.sharesStorageWith g = g.sharesStorageWith f := by
  rw [Bool.eq_iff_iff, sharesStorageWith_iff, sharesStorageWith_iff]
  constructor
  · rintro ⟨s, hs, t, ht, hb, ha⟩
    exact ⟨t, ht, s, hs, hb.symm, Ne.symm ha⟩
  · rintro ⟨s, hs, t, ht, hb, ha⟩
    exact ⟨t, ht, s, hs, hb.symm, Ne.symm ha⟩

theorem Field.Clashes.symm {f g : Field} (h : f.Clashes g) : g.Clashes f :=
  ⟨h.2.1, h.1, h.2.2.1.symm, sharesStorageWith_comm f g ▸ h.2.2.2⟩

theorem Field.meets_iff (f g : Field) :
    f.Meets g ↔ max f.startPosition g.startPosition ≤ min f.endPosition g.endPosition := by
  constructor
  · rintro ⟨p, hf, hf', hg, hg'⟩
    omega
  · intro h
    exact ⟨max f.startPosition g.startPosition, by omega, by omega, by omega, by omega⟩

instance (f : Field) : Decidable f.HasBytes :=
  inferInstanceAs (Decidable (f.isElementary = true ∧ 0 < f.storageLength))

instance (f g : Field) : Decidable (f.Meets g) := decidable_of_iff _ (Field.meets_iff f g).symm

instance (f g : Field) : Decidable (f.Clashes g) :=
  inferInstanceAs (Decidable (f.HasBytes ∧ g.HasBytes ∧ f.Meets g ∧ f.sharesStorageWith g = false))

/-- A field that starts first meets the other one when it reaches the start of that. -/
theorem Field.meets_iff_of_le {f g : Field} (hs : f.startPosition ≤ g.startPosition)
    (hg : g.startPosition ≤ g.endPosition) : f.Meets g ↔ g.startPosition ≤ f.endPosition := by
  constructor
  · rintro ⟨p, -, hp, hp', -⟩
    omega
  · intro h
    exact ⟨g.startPosition, hs, h, Nat.le_refl _, hg⟩

namespace Layout.Overlap

/-- The earlier field reaches the next one and may not. -/
def isMistake (next a : Indexed) : Bool :=
  next.1.startPosition ≤ a.1.endPosition && !a.1.sharesStorageWith next.1

/-- All mistakes between fields in order; `before` holds every field met before. -/
def pairs (before : List Indexed) : List Indexed → List Overlap
  | [] => []
  | next :: rest =>
    (before.filter (isMistake next)).map (fun a => ⟨a.2, next.2⟩) ++ pairs (before ++ [next]) rest

/-- Forgetting fields that end before the next one starts loses no mistake. -/
theorem sweep_eq_pairs {active before rest : List Indexed}
    (hsort : rest.Pairwise fun a b => a.1.startPosition ≤ b.1.startPosition)
    (hreach : ∀ next ∈ rest,
      active.filter (fun a => next.1.startPosition ≤ a.1.endPosition) =
        before.filter fun a => next.1.startPosition ≤ a.1.endPosition) :
    sweep active rest = pairs before rest := by
  induction rest generalizing active before with
  | nil => rfl
  | cons next rest ih =>
    obtain ⟨hnext, hsort⟩ := List.pairwise_cons.1 hsort
    have hr := hreach next List.mem_cons_self
    simp only [sweep, pairs, hr]
    congr 1
    · simp only [List.filter_filter]
      congr 2
      funext a
      simp [isMistake, Bool.and_comm]
    · refine ih hsort fun next' hm => ?_
      have hle := hnext next' hm
      simp only [List.filter_append, List.filter_filter]
      congr 2
      funext a
      by_cases h : next'.1.startPosition ≤ a.1.endPosition
      · have : next.1.startPosition ≤ a.1.endPosition := by omega
        simp [h, this]
      · simp [h]

theorem pairs_eq_nil_iff (before rest : List Indexed) :
    pairs before rest = [] ↔ (∀ next ∈ rest, ∀ a ∈ before, isMistake next a = false) ∧
      rest.Pairwise fun a b => isMistake b a = false := by
  induction rest generalizing before with
  | nil => simp [pairs]
  | cons next rest ih =>
    simp only [pairs, List.append_eq_nil_iff, List.map_eq_nil_iff, List.filter_eq_nil_iff, ih,
      List.mem_append, List.mem_cons, List.not_mem_nil, or_false, List.pairwise_cons,
      Bool.not_eq_true]
    constructor
    · rintro ⟨hnext, hrest, hpair⟩
      refine ⟨?_, fun b hb => hrest b hb next (.inr rfl), hpair⟩
      rintro b (rfl | hb) a ha
      · exact hnext a ha
      · exact hrest b hb a (.inl ha)
    · rintro ⟨hall, hnext, hpair⟩
      refine ⟨fun a ha => hall next (.inl rfl) a ha, ?_, hpair⟩
      rintro b hb a (ha | rfl)
      · exact hall b (.inr hb) a ha
      · exact hnext b hb

theorem exists_of_mem_pairs {before rest : List Indexed} {o : Overlap}
    (h : o ∈ pairs before rest) :
    ∃ a ∈ before ++ rest, ∃ b ∈ rest, o = ⟨a.2, b.2⟩ ∧ isMistake b a = true := by
  induction rest generalizing before with
  | nil => cases h
  | cons next rest ih =>
    rcases List.mem_append.1 h with h | h
    · obtain ⟨a, ha, rfl⟩ := List.mem_map.1 h
      obtain ⟨ha, hm⟩ := List.mem_filter.1 ha
      exact ⟨a, List.mem_append_left _ ha, next, List.mem_cons_self, rfl, hm⟩
    · obtain ⟨a, ha, b, hb, ho, hm⟩ := ih h
      refine ⟨a, ?_, b, List.mem_cons_of_mem _ hb, ho, hm⟩
      simpa using ha

/-! ## The order of the sweep -/

theorem precedes_iff (a b : Indexed) :
    precedes a b = true ↔ a.1.startPosition < b.1.startPosition ∨
      a.1.startPosition = b.1.startPosition ∧ a.2 ≤ b.2 := by
  simp [precedes]

theorem precedes_total (a b : Indexed) : (precedes a b || precedes b a) = true := by
  rw [Bool.or_eq_true, precedes_iff, precedes_iff]
  omega

theorem precedes_trans (a b c : Indexed) (hab : precedes a b = true) (hbc : precedes b c = true) :
    precedes a c = true := by
  rw [precedes_iff] at *
  omega

theorem pairwise_sorted (fields : List Field) :
    ((stored fields).mergeSort precedes).Pairwise
      fun a b => a.1.startPosition ≤ b.1.startPosition := by
  refine (List.pairwise_mergeSort precedes_trans precedes_total (stored fields)).imp ?_
  intro a b h
  rw [precedes_iff] at h
  omega

theorem find_eq_pairs (fields : List Field) :
    find fields = pairs [] ((stored fields).mergeSort precedes) :=
  sweep_eq_pairs (pairwise_sorted fields) fun _ _ => rfl

/-! ## What is found -/

theorem mem_stored {fields : List Field} {a : Indexed} (h : a ∈ stored fields) :
    fields[a.2]? = some a.1 ∧ a.1.HasBytes := by
  obtain ⟨hm, hp⟩ := List.mem_filter.1 h
  refine ⟨List.mk_mem_zipIdx_iff_getElem?.1 hm, ?_⟩
  simpa [Field.HasBytes] using hp

/-- What is found are two fields with bytes. -/
theorem exists_of_mem_find {fields : List Field} {o : Overlap} (h : o ∈ find fields) :
    ∃ f g, fields[o.first]? = some f ∧ fields[o.second]? = some g ∧ f.HasBytes ∧ g.HasBytes := by
  rw [find_eq_pairs] at h
  obtain ⟨a, ha, b, hb, rfl, -⟩ := exists_of_mem_pairs h
  obtain ⟨hi, hf⟩ := mem_stored (List.mem_mergeSort.1 ha)
  obtain ⟨hj, hg⟩ := mem_stored (List.mem_mergeSort.1 hb)
  exact ⟨a.1, b.1, hi, hj, hf, hg⟩

/-- Of two fields with bytes, the one that starts first is mistaken exactly when they clash. -/
theorem isMistake_eq_false_iff {a b : Indexed} (ha : a.1.HasBytes) (hb : b.1.HasBytes)
    (hle : a.1.startPosition ≤ b.1.startPosition) (hpos : b.1.startPosition ≤ b.1.endPosition) :
    isMistake b a = false ↔ ¬ a.1.Clashes b.1 := by
  have hmeet := Field.meets_iff_of_le hle hpos
  simp only [Field.Clashes, ha, hb, hmeet, true_and, isMistake]
  cases a.1.sharesStorageWith b.1 <;> simp

/-- Nothing is found exactly when no two fields clash, if every field with bytes has one. -/
theorem find_eq_nil_iff {fields : List Field}
    (hpos : ∀ f ∈ fields, f.HasBytes → f.startPosition ≤ f.endPosition) :
    find fields = [] ↔ fields.Pairwise fun f g => ¬ f.Clashes g := by
  have hsorted : ((stored fields).mergeSort precedes).Pairwise
        (fun a b => isMistake b a = false) ↔
      ((stored fields).mergeSort precedes).Pairwise fun a b => ¬ a.1.Clashes b.1 := by
    have hmem : ((stored fields).mergeSort precedes).Pairwise fun a b =>
        a ∈ stored fields ∧ b ∈ stored fields := by
      refine List.pairwise_of_forall_mem_list fun a ha b hb => ?_
      exact ⟨List.mem_mergeSort.1 ha, List.mem_mergeSort.1 hb⟩
    have hboth := (pairwise_sorted fields).and hmem
    have hiff : ∀ a b : Indexed, a.1.startPosition ≤ b.1.startPosition ∧
        a ∈ stored fields ∧ b ∈ stored fields → (isMistake b a = false ↔ ¬ a.1.Clashes b.1) := by
      rintro a b ⟨hle, ha, hb⟩
      obtain ⟨-, hba⟩ := mem_stored ha
      obtain ⟨hi, hbb⟩ := mem_stored hb
      exact isMistake_eq_false_iff hba hbb hle (hpos b.1 (List.mem_of_getElem? hi) hbb)
    exact ⟨fun h => (h.and hboth).imp fun hab => (hiff _ _ hab.2).1 hab.1,
      fun h => (h.and hboth).imp fun hab => (hiff _ _ hab.2).2 hab.1⟩
  have hperm : ((stored fields).mergeSort precedes).Pairwise (fun a b => ¬ a.1.Clashes b.1) ↔
      (stored fields).Pairwise fun a b => ¬ a.1.Clashes b.1 :=
    (List.mergeSort_perm _ _).pairwise_iff fun h h' => h h'.symm
  have hall : (stored fields).Pairwise (fun a b => ¬ a.1.Clashes b.1) ↔
      fields.Pairwise fun f g => ¬ f.Clashes g := by
    rw [stored, List.pairwise_filter]
    have hzip := List.pairwise_map (l := fields.zipIdx) (f := (·.1))
      (R := fun f g : Field => ¬ f.Clashes g)
    rw [List.zipIdx_map_fst] at hzip
    rw [hzip]
    constructor
    · refine fun h => h.imp fun hab hc => hab ?_ ?_ hc
      · simpa [Field.HasBytes] using hc.1
      · simpa [Field.HasBytes] using hc.2.1
    · exact fun h => h.imp fun hab _ _ => hab
  rw [find_eq_pairs, pairs_eq_nil_iff]
  simp [hsorted, hperm, hall]

/-- Something is found exactly when two different fields clash. -/
theorem find_ne_nil_iff {fields : List Field}
    (hpos : ∀ f ∈ fields, f.HasBytes → f.startPosition ≤ f.endPosition) :
    find fields ≠ [] ↔ ∃ (i j : Nat) (f g : Field), i ≠ j ∧
      fields[i]? = some f ∧ fields[j]? = some g ∧ f.Clashes g := by
  rw [ne_eq, find_eq_nil_iff hpos, List.pairwise_iff_getElem]
  constructor
  · intro h
    simp only [Classical.not_forall, Classical.not_not] at h
    obtain ⟨i, j, hi, hj, hlt, hc⟩ := h
    exact ⟨i, j, _, _, by omega, List.getElem?_eq_getElem hi, List.getElem?_eq_getElem hj, hc⟩
  · rintro ⟨i, j, f, g, hne, hf, hg, hc⟩ h
    obtain ⟨hi, rfl⟩ := List.getElem?_eq_some_iff.1 hf
    obtain ⟨hj, rfl⟩ := List.getElem?_eq_some_iff.1 hg
    rcases Nat.lt_or_gt_of_ne hne with hlt | hlt
    · exact h i j hi hj hlt hc
    · exact h j i hj hi hlt hc.symm

end Layout.Overlap

end DataDivision
