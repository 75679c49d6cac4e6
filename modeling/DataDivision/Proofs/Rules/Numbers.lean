import DataDivision.Proofs.Results
import DataDivision.Proofs.Rules.Interpretation

/-!
Numbers of columns.

A strategy counts columns in numbers of its configuration, of which only positive ones are
interpreted (`given_of_strategyOf`).
-/

namespace DataDivision

/-- The numbers in which a strategy counts columns. -/
def Classification.Strategy.numbers : Strategy → List Nat
  | .position rule => [rule.start, rule.length]
  | .character rule => [rule.start]
  | .conditional rule => [rule.start]
  | .multiField rule => rule.tests.flatMap fun test => [test.start, test.length]
  | .pattern _ | .undivided => []

namespace Rules

def FieldTest.numbers (test : FieldTest) : List Int := test.start.toList ++ test.length.toList

def RecordTypeField.numbers (field : RecordTypeField) : List Int :=
  field.start.toList ++ field.length.toList ++ field.multiFieldRules.flatMap FieldTest.numbers

/-- The number is a positive one of those that are given. -/
def IsGiven (given : List Int) (n : Nat) : Prop := ∃ m ∈ given, 1 ≤ m ∧ n = m.toNat

theorem IsGiven.mono {given given' : List Int} {n : Nat} (h : IsGiven given n)
    (hg : given ⊆ given') : IsGiven given' n :=
  h.imp fun _ hm => ⟨hg hm.1, hm.2⟩

theorem isGiven_of_positive {parameter : String} {value : Int} {n : Nat}
    (h : positive parameter value = .ok n) : IsGiven [value] n := by
  unfold positive at h
  split at h
  · rename_i hv
    exact ⟨value, List.mem_singleton_self _, hv, (Except.ok.inj h).symm⟩
  · cases h

theorem isGiven_of_required {strategy parameter : String} {value : Option Int} {n : Nat}
    (h : required strategy parameter value = .ok n) : IsGiven value.toList n := by
  cases value with
  | none => cases h
  | some m => exact isGiven_of_positive h

theorem isGiven_of_fieldMatch {index : Nat} {test : FieldTest} {m : Classification.FieldMatch}
    (h : fieldMatch index test = .ok m) : ∀ n ∈ [m.start, m.length], IsGiven test.numbers n := by
  obtain ⟨start, hstart, h⟩ := ok_of_bind h
  obtain ⟨length, hlength, h⟩ := ok_of_bind h
  split at h
  · cases h
  · cases h
  · obtain rfl := Except.ok.inj h
    simp only [List.mem_cons, List.not_mem_nil, or_false, forall_eq_or_imp, forall_eq]
    exact ⟨(isGiven_of_required hstart).mono (List.subset_append_left _ _),
      (isGiven_of_required hlength).mono (List.subset_append_right _ _)⟩

theorem isGiven_of_fieldMatches {index : Nat} {tests : List FieldTest}
    {found : List Classification.FieldMatch} (h : fieldMatches index tests = .ok found) :
    ∀ n ∈ found.flatMap fun m => [m.start, m.length],
      IsGiven (tests.flatMap FieldTest.numbers) n := by
  induction tests generalizing index found with
  | nil =>
    obtain rfl := Except.ok.inj h
    simp
  | cons test rest ih =>
    obtain ⟨first, hfirst, h⟩ := ok_of_bind h
    obtain ⟨more, hmore, h⟩ := ok_of_bind h
    obtain rfl := Except.ok.inj h
    intro n hn
    rw [List.flatMap_cons] at hn ⊢
    rcases List.mem_append.1 hn with hn | hn
    · exact (isGiven_of_fieldMatch hfirst n hn).mono (List.subset_append_left _ _)
    · exact (ih hmore n hn).mono (List.subset_append_right _ _)

section

variable {field : RecordTypeField}

theorem start_subset_numbers : field.start.toList ⊆ field.numbers :=
  fun _ hm => List.mem_append_left _ (List.mem_append_left _ hm)

theorem length_subset_numbers : field.length.toList ⊆ field.numbers :=
  fun _ hm => List.mem_append_left _ (List.mem_append_right _ hm)

theorem given_of_positionRule {rule : Classification.PositionRule}
    (h : positionRule field = .ok rule) :
    IsGiven field.numbers rule.start ∧ IsGiven field.numbers rule.length := by
  obtain ⟨start, hstart, h⟩ := ok_of_bind h
  obtain ⟨length, hlength, h⟩ := ok_of_bind h
  split at h
  · cases h
  · obtain rfl := Except.ok.inj h
    exact ⟨(isGiven_of_required hstart).mono start_subset_numbers,
      (isGiven_of_required hlength).mono length_subset_numbers⟩

theorem given_of_characterRule {rule : Classification.CharacterRule}
    (h : characterRule field = .ok rule) : IsGiven field.numbers rule.start := by
  obtain ⟨start, hstart, h⟩ := ok_of_bind h
  split at h
  · cases h
  · obtain rfl := Except.ok.inj h
    exact (isGiven_of_required hstart).mono start_subset_numbers

/-- A single character stands in the first column, unless a column is given. -/
theorem given_of_conditionalRule {rule : Classification.ConditionalRule}
    (h : conditionalRule field = .ok rule) : rule.start = 1 ∨ IsGiven field.numbers rule.start := by
  unfold conditionalRule at h
  dsimp only at h
  split at h
  · obtain ⟨start, hstart, h⟩ := ok_of_bind h
    obtain rfl := Except.ok.inj hstart
    split at h
    · cases h
    · obtain rfl := Except.ok.inj h
      exact .inl rfl
  · rename_i value hvalue
    obtain ⟨start, hstart, h⟩ := ok_of_bind h
    split at h
    · cases h
    · obtain rfl := Except.ok.inj h
      refine .inr ((isGiven_of_positive hstart).mono fun m hm => start_subset_numbers ?_)
      rw [List.mem_singleton.1 hm, hvalue]
      exact List.mem_singleton_self value

theorem given_of_multiFieldRule {rule : Classification.MultiFieldRule}
    (h : multiFieldRule field = .ok rule) :
    ∀ n ∈ (Classification.Strategy.multiField rule).numbers, IsGiven field.numbers n := by
  unfold multiFieldRule at h
  split at h
  · cases h
  · obtain ⟨tests, ht, h⟩ := ok_of_bind h
    obtain rfl := Except.ok.inj h
    exact fun n hn => (isGiven_of_fieldMatches ht n hn).mono (List.subset_append_right _ _)

end

/-- A strategy counts columns in positive numbers of its configuration, and from the first column
where none is given. -/
theorem given_of_strategyOf {engine : Pattern.Engine} {config : Config}
    {strategy : Classification.Strategy} (h : strategyOf engine config = .ok strategy)
    {n : Nat} (hn : n ∈ strategy.numbers) :
    n = 1 ∨ ∃ field ∈ config.recordTypeField, IsGiven field.numbers n := by
  unfold strategyOf at h
  dsimp only at h
  cases hf : config.recordTypeField with
  | none =>
    simp only [hf] at h
    -- Without the section, all strategies but the undivided one are refused.
    split at h <;> cases h
    cases hn
  | some field =>
    refine Or.imp_right (fun hg => ⟨field, rfl, hg⟩) (?_ : n = 1 ∨ IsGiven field.numbers n)
    simp only [hf] at h
    split at h
    · obtain ⟨rule, hr, rfl⟩ := ok_of_map h
      obtain ⟨hstart, hlength⟩ := given_of_positionRule hr
      rcases List.mem_cons.1 hn with rfl | hn
      · exact .inr hstart
      · exact .inr (List.mem_singleton.1 hn ▸ hlength)
    · obtain ⟨rule, hr, rfl⟩ := ok_of_map h
      exact .inr (List.mem_singleton.1 hn ▸ given_of_characterRule hr)
    · obtain ⟨rule, hr, rfl⟩ := ok_of_map h
      exact List.mem_singleton.1 hn ▸ given_of_conditionalRule hr
    · obtain ⟨rule, -, rfl⟩ := ok_of_map h
      cases hn
    · obtain ⟨rule, hr, rfl⟩ := ok_of_map h
      exact .inr (given_of_multiFieldRule hr n hn)
    · obtain rfl := Except.ok.inj h
      cases hn
    · cases h

/-- Columns are counted in positive numbers. -/
theorem pos_of_strategyOf {engine : Pattern.Engine} {config : Config}
    {strategy : Classification.Strategy} (h : strategyOf engine config = .ok strategy)
    {n : Nat} (hn : n ∈ strategy.numbers) : 0 < n := by
  rcases given_of_strategyOf h hn with rfl | ⟨field, -, m, -, hpos, rfl⟩
  · exact Nat.one_pos
  · omega

/-! ## Tests -/

theorem length_of_fieldMatches {index : Nat} {tests : List FieldTest}
    {found : List Classification.FieldMatch} (h : fieldMatches index tests = .ok found) :
    found.length = tests.length := by
  induction tests generalizing index found with
  | nil =>
    obtain rfl := Except.ok.inj h
    rfl
  | cons test rest ih =>
    obtain ⟨first, -, h⟩ := ok_of_bind h
    obtain ⟨more, hmore, h⟩ := ok_of_bind h
    obtain rfl := Except.ok.inj h
    rw [List.length_cons, List.length_cons, ih hmore]

/-- Lines are not told apart by several tests without a test. -/
theorem tests_ne_nil_of_multiFieldRule {field : RecordTypeField}
    {rule : Classification.MultiFieldRule} (h : multiFieldRule field = .ok rule) :
    rule.tests ≠ [] := by
  unfold multiFieldRule at h
  split at h
  · cases h
  · rename_i hne
    obtain ⟨tests, ht, h⟩ := ok_of_bind h
    obtain rfl := Except.ok.inj h
    have hlength := length_of_fieldMatches ht
    rintro rfl
    exact hne (List.isEmpty_iff_length_eq_zero.2 hlength.symm)

theorem tests_ne_nil_of_strategyOf {engine : Pattern.Engine} {config : Config}
    {rule : Classification.MultiFieldRule}
    (h : strategyOf engine config = .ok (.multiField rule)) : rule.tests ≠ [] := by
  unfold strategyOf at h
  dsimp only at h
  cases hf : config.recordTypeField with
  | none =>
    simp only [hf] at h
    split at h <;> cases h
  | some field =>
    simp only [hf] at h
    split at h
    · obtain ⟨_, -, hr⟩ := ok_of_map h
      cases hr
    · obtain ⟨_, -, hr⟩ := ok_of_map h
      cases hr
    · obtain ⟨_, -, hr⟩ := ok_of_map h
      cases hr
    · obtain ⟨_, -, hr⟩ := ok_of_map h
      cases hr
    · obtain ⟨found, hfound, hr⟩ := ok_of_map h
      cases hr
      exact tests_ne_nil_of_multiFieldRule hfound
    · cases h
    · cases h

end Rules

end DataDivision
