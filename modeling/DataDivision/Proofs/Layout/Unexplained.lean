import DataDivision.Proofs.Layout.Sweep
import Mathlib.Data.Sym.Sym2

/-!
Unexplained overlaps.

The sweep finds every two fields that clash once (`mem_find_iff`), the one that starts first before
the other.  It finds them in the order in which the second fields start, and for each second field
in the order in which the first ones start (`pairwise_find`).
-/

namespace DataDivision.Layout

/-- The field at the first index starts before the one at the second index, or at the same byte and
has the lower index. -/
def StartsBefore (fields : List Field) (i j : Nat) : Prop :=
  ∃ f g, fields[i]? = some f ∧ fields[j]? = some g ∧
    (f.startPosition < g.startPosition ∨ f.startPosition = g.startPosition ∧ i < j)

def ClashAt (fields : List Field) (i j : Nat) : Prop :=
  ∃ f g, fields[i]? = some f ∧ fields[j]? = some g ∧ f.Clashes g

instance (fields : List Field) (i j : Nat) : Decidable (ClashAt fields i j) :=
  decidable_of_iff (∃ f ∈ fields[i]?, ∃ g ∈ fields[j]?, f.Clashes g) (by simp [ClashAt])

variable {fields : List Field} {i j : Nat}

theorem ClashAt.symm (h : ClashAt fields i j) : ClashAt fields j i := by
  obtain ⟨f, g, hf, hg, hc⟩ := h
  exact ⟨g, f, hg, hf, hc.symm⟩

theorem StartsBefore.asymm (h : StartsBefore fields i j) : ¬ StartsBefore fields j i := by
  rintro ⟨g', f', hg', hf', hlt'⟩
  obtain ⟨f, g, hf, hg, hlt⟩ := h
  obtain rfl := Option.some.inj (hf.symm.trans hf')
  obtain rfl := Option.some.inj (hg.symm.trans hg')
  omega

theorem startsBefore_or (hne : i ≠ j) {f g : Field} (hf : fields[i]? = some f)
    (hg : fields[j]? = some g) : StartsBefore fields i j ∨ StartsBefore fields j i := by
  by_cases h : f.startPosition < g.startPosition ∨ f.startPosition = g.startPosition ∧ i < j
  · exact .inl ⟨f, g, hf, hg, h⟩
  · exact .inr ⟨g, f, hg, hf, by omega⟩

namespace Overlap

/-- The two fields, in no order. -/
def pair (o : Overlap) : Sym2 Nat := s(o.first, o.second)

/-- The order of the overlaps that are found. -/
def FoundBefore (fields : List Field) (o p : Overlap) : Prop :=
  StartsBefore fields o.second p.second ∨
    o.second = p.second ∧ StartsBefore fields o.first p.first

/-! ## Pairs in order -/

section

variable {lt : Nat → Nat → Prop} {before rest : List Indexed}

/-- Among fields in order, the mistakes are those between an earlier field and a later one. -/
theorem mem_pairs_iff (hasymm : ∀ i j, lt i j → ¬ lt j i)
    (hsort : (before ++ rest).Pairwise fun a b => lt a.2 b.2) {o : Overlap} :
    o ∈ pairs before rest ↔ ∃ a ∈ before ++ rest, ∃ b ∈ rest, lt a.2 b.2 ∧
      isMistake b a = true ∧ o = ⟨a.2, b.2⟩ := by
  induction rest generalizing before with
  | nil => simp [pairs]
  | cons next rest ih =>
    have happend : before ++ [next] ++ rest = before ++ next :: rest := by simp
    have hrest := ih (happend ▸ hsort)
    rw [happend] at hrest
    obtain ⟨-, hnext, hbefore⟩ := List.pairwise_append.1 hsort
    rw [pairs, List.mem_append, hrest]
    constructor
    · rintro (h | ⟨a, ha, b, hb, h⟩)
      · obtain ⟨a, ha, rfl⟩ := List.mem_map.1 h
        obtain ⟨ha, hm⟩ := List.mem_filter.1 ha
        exact ⟨a, List.mem_append_left _ ha, next, List.mem_cons_self,
          hbefore a ha next List.mem_cons_self, hm, rfl⟩
      · exact ⟨a, ha, b, List.mem_cons_of_mem _ hb, h⟩
    · rintro ⟨a, ha, b, hb, hlt, hm, rfl⟩
      rcases List.mem_cons.1 hb with rfl | hb
      · -- Nothing that comes after the field, nor the field itself, is before it.
        have hab : a ∈ before := by
          rcases List.mem_append.1 ha with ha | ha
          · exact ha
          rcases List.mem_cons.1 ha with rfl | ha
          · exact absurd hlt (hasymm _ _ hlt)
          · exact absurd hlt (hasymm _ _ ((List.pairwise_cons.1 hnext).1 a ha))
        exact .inl (List.mem_map.2 ⟨a, List.mem_filter.2 ⟨hab, hm⟩, rfl⟩)
      · exact .inr ⟨a, ha, b, hb, hlt, hm, rfl⟩

/-- The mistakes among fields in order are found in the order of the second fields, then of the
first ones. -/
theorem pairwise_pairs (hsort : (before ++ rest).Pairwise fun a b => lt a.2 b.2) :
    (pairs before rest).Pairwise fun o p =>
      lt o.second p.second ∨ o.second = p.second ∧ lt o.first p.first := by
  induction rest generalizing before with
  | nil => exact .nil
  | cons next rest ih =>
    have happend : before ++ [next] ++ rest = before ++ next :: rest := by simp
    obtain ⟨hbefore, hnext, -⟩ := List.pairwise_append.1 hsort
    refine List.pairwise_append.2 ⟨?_, ih (happend ▸ hsort), ?_⟩
    · rw [List.pairwise_map]
      exact (hbefore.filter (isMistake next)).imp fun h => .inr ⟨rfl, h⟩
    · intro o ho p hp
      obtain ⟨a, -, rfl⟩ := List.mem_map.1 ho
      obtain ⟨-, -, b, hb, rfl, -⟩ := exists_of_mem_pairs hp
      exact .inl ((List.pairwise_cons.1 hnext).1 b hb)

end

/-! ## Fields in order -/

theorem mem_stored_iff {a : Indexed} :
    a ∈ stored fields ↔ fields[a.2]? = some a.1 ∧ a.1.HasBytes := by
  refine ⟨mem_stored, fun ⟨hi, hb⟩ => List.mem_filter.2 ⟨?_, ?_⟩⟩
  · exact List.mk_mem_zipIdx_iff_getElem?.2 hi
  · simpa [Field.HasBytes] using hb

theorem pairwise_stored (fields : List Field) :
    (stored fields).Pairwise fun a b => a.2 ≠ b.2 := by
  have hall : fields.zipIdx.Pairwise fun a b => a.2 ≠ b.2 := by
    rw [← List.pairwise_map (f := Prod.snd) (R := (· ≠ ·)), List.zipIdx_map_snd]
    exact List.nodup_range'
  exact hall.sublist List.filter_sublist

theorem pairwise_startsBefore (fields : List Field) :
    ((stored fields).mergeSort precedes).Pairwise fun a b => StartsBefore fields a.2 b.2 := by
  have hsort := List.pairwise_mergeSort precedes_trans precedes_total (stored fields)
  have hne := (List.mergeSort_perm (stored fields) precedes).pairwise_iff
    (fun h => Ne.symm h) |>.2 (pairwise_stored fields)
  refine (hsort.and hne).imp_of_mem fun {a b} ha hb ⟨hp, hab⟩ => ?_
  obtain ⟨hi, -⟩ := mem_stored (List.mem_mergeSort.1 ha)
  obtain ⟨hj, -⟩ := mem_stored (List.mem_mergeSort.1 hb)
  rw [precedes_iff] at hp
  exact ⟨a.1, b.1, hi, hj, by omega⟩

/-! ## What is found, and in which order -/

/-- What is found are the fields that clash, each two of them in the order of their starts. -/
theorem mem_find_iff (hpos : ∀ f ∈ fields, f.HasBytes → f.startPosition ≤ f.endPosition)
    {o : Overlap} :
    o ∈ find fields ↔ StartsBefore fields o.first o.second ∧ ClashAt fields o.first o.second := by
  have hmistake : ∀ {a b : Indexed}, a ∈ stored fields → b ∈ stored fields →
      StartsBefore fields a.2 b.2 → (isMistake b a = true ↔ a.1.Clashes b.1) := by
    intro a b ha hb hlt
    obtain ⟨hi, hab⟩ := mem_stored ha
    obtain ⟨hj, hbb⟩ := mem_stored hb
    obtain ⟨f, g, hf, hg, hlt⟩ := hlt
    obtain rfl := Option.some.inj (hi.symm.trans hf)
    obtain rfl := Option.some.inj (hj.symm.trans hg)
    have hiff := isMistake_eq_false_iff hab hbb (by omega)
      (hpos b.1 (List.mem_of_getElem? hj) hbb)
    rw [← not_iff_not, ← hiff, Bool.not_eq_true]
  have hasymm : ∀ i j, StartsBefore fields i j → ¬ StartsBefore fields j i :=
    fun _ _ => StartsBefore.asymm
  rw [find_eq_pairs, mem_pairs_iff hasymm (by simpa using pairwise_startsBefore fields)]
  simp only [List.nil_append, List.mem_mergeSort]
  constructor
  · rintro ⟨a, ha, b, hb, hlt, hm, rfl⟩
    exact ⟨hlt, a.1, b.1, (mem_stored ha).1, (mem_stored hb).1, (hmistake ha hb hlt).1 hm⟩
  · rintro ⟨hlt, f, g, hf, hg, hc⟩
    have ha : (f, o.first) ∈ stored fields := mem_stored_iff.2 ⟨hf, hc.1⟩
    have hb : (g, o.second) ∈ stored fields := mem_stored_iff.2 ⟨hg, hc.2.1⟩
    exact ⟨_, ha, _, hb, hlt, (hmistake ha hb hlt).2 hc, rfl⟩

theorem pairwise_find (fields : List Field) : (find fields).Pairwise (FoundBefore fields) := by
  rw [find_eq_pairs]
  exact pairwise_pairs (by simpa using pairwise_startsBefore fields)

/-- No two fields are found twice, in either order. -/
theorem nodup_pairs_find
    (hpos : ∀ f ∈ fields, f.HasBytes → f.startPosition ≤ f.endPosition) :
    ((find fields).map pair).Nodup := by
  rw [List.nodup_iff_pairwise_ne, List.pairwise_map]
  refine (pairwise_find fields).imp_of_mem fun {o p} ho hp hlt he => ?_
  have ho' := ((mem_find_iff hpos).1 ho).1
  have hp' := ((mem_find_iff hpos).1 hp).1
  rcases Sym2.eq_iff.1 he with ⟨hfirst, hsecond⟩ | ⟨hfirst, hsecond⟩
  · rcases hlt with hlt | ⟨-, hlt⟩
    · rw [hsecond] at hlt
      exact hlt.asymm hlt
    · rw [hfirst] at hlt
      exact hlt.asymm hlt
  · rw [hfirst, hsecond] at ho'
    exact ho'.asymm hp'

/-- If every field with bytes ends where its length tells, what is found are the pairs of different
fields that clash, each once, and in order. -/
theorem find_exact
    (hend : ∀ f ∈ fields, f.HasBytes → f.endPosition = f.startPosition + f.storageLength - 1) :
    ((find fields).map pair).Nodup ∧
      (∀ i j, s(i, j) ∈ (find fields).map pair ↔ i ≠ j ∧ ClashAt fields i j) ∧
      (∀ o ∈ find fields, StartsBefore fields o.first o.second) ∧
      (find fields).Pairwise (FoundBefore fields) := by
  have hpos : ∀ f ∈ fields, f.HasBytes → f.startPosition ≤ f.endPosition := by
    intro f hf hb
    have := hend f hf hb
    have := hb.2
    omega
  refine ⟨nodup_pairs_find hpos, fun i j => ?_, fun o ho => ((mem_find_iff hpos).1 ho).1,
    pairwise_find fields⟩
  rw [List.mem_map]
  constructor
  · rintro ⟨o, ho, he⟩
    obtain ⟨hlt, hc⟩ := (mem_find_iff hpos).1 ho
    have hne : o.first ≠ o.second := by
      intro h
      rw [h] at hlt
      exact hlt.asymm hlt
    rcases Sym2.eq_iff.1 he with ⟨rfl, rfl⟩ | ⟨rfl, rfl⟩
    · exact ⟨hne, hc⟩
    · exact ⟨hne.symm, hc.symm⟩
  · rintro ⟨hne, hc⟩
    obtain ⟨f, g, hf, hg, -⟩ := id hc
    rcases startsBefore_or hne hf hg with hlt | hlt
    · exact ⟨⟨i, j⟩, (mem_find_iff hpos).2 ⟨hlt, hc⟩, rfl⟩
    · exact ⟨⟨j, i⟩, (mem_find_iff hpos).2 ⟨hlt, hc.symm⟩, Sym2.eq_swap⟩

/-- Three fields around byte 4, of which the first and the last are layouts of one storage: each
clashes with the one between them. -/
theorem find_exact_between_layouts :
    let fields : List Field :=
      [{ (Field.new 5 "A" .elementary).place 1 4 with overlays := [⟨0, 0⟩] },
        (Field.new 5 "B" .elementary).place 4 3,
        { (Field.new 5 "C" .elementary).place 4 1 with overlays := [⟨0, 2⟩] }]
    (∀ f ∈ fields, f.HasBytes → f.endPosition = f.startPosition + f.storageLength - 1) ∧
      ((find fields).map pair).Nodup ∧ s(1, 0) ∈ (find fields).map pair ∧
      s(1, 2) ∈ (find fields).map pair ∧ s(0, 2) ∉ (find fields).map pair ∧
      (find fields).Pairwise (FoundBefore fields) := by
  intro fields
  have hend : ∀ f ∈ fields, f.HasBytes →
      f.endPosition = f.startPosition + f.storageLength - 1 := by decide
  obtain ⟨hnodup, hmem, -, hsort⟩ := find_exact hend
  exact ⟨hend, hnodup, (hmem 1 0).2 (by decide), (hmem 1 2).2 (by decide),
    fun h => absurd ((hmem 0 2).1 h) (by decide), hsort⟩

end Overlap

end DataDivision.Layout
