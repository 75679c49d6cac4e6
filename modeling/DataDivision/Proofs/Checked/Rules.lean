import DataDivision.Proofs.Checked.Entry
import DataDivision.Proofs.Rules.Numbers

/-!
Numbers in rules.

The integers of a configuration are signed 64-bit numbers (`Config.Fits`).  Those that are
interpreted are positive ones among them, so the sum of any two is a 64-bit number: the column
behind a record type code (`fits_of_strategyOf`) and the first position behind the bytes of one
(`startPosition_add_codeWidth_le`).
-/

namespace DataDivision.Rules

/-- The columns of a test are signed 64-bit numbers. -/
structure FieldTest.Fits (test : FieldTest) : Prop where
  start : ∀ n ∈ test.start, IsInt64 n
  length : ∀ n ∈ test.length, IsInt64 n

/-- The columns of a record type code are signed 64-bit numbers. -/
structure RecordTypeField.Fits (field : RecordTypeField) : Prop where
  start : ∀ n ∈ field.start, IsInt64 n
  length : ∀ n ∈ field.length, IsInt64 n
  tests : ∀ test ∈ field.multiFieldRules, test.Fits

/-- The integers of a configuration are signed 64-bit numbers. -/
structure Config.Fits (config : Config) : Prop where
  startPosition : IsInt64 config.layoutGeneration.startPosition
  field : ∀ field ∈ config.recordTypeField, field.Fits

/-! ## Strategies -/

theorem RecordTypeField.Fits.isInt64 {field : RecordTypeField} (h : field.Fits) {m : Int}
    (hm : m ∈ field.numbers) : IsInt64 m := by
  simp only [numbers, List.mem_append, List.mem_flatMap, FieldTest.numbers, Option.mem_toList] at hm
  rcases hm with (hm | hm) | ⟨test, ht, hm | hm⟩
  · exact h.start m hm
  · exact h.length m hm
  · exact (h.tests test ht).start m hm
  · exact (h.tests test ht).length m hm

/-- The strategy of a configuration counts columns in signed 64-bit numbers. -/
theorem fits_of_strategyOf {engine : Pattern.Engine} {config : Config}
    {strategy : Classification.Strategy} (h : strategyOf engine config = .ok strategy)
    (hc : config.Fits) : strategy.Fits := by
  have hnumbers : ∀ n ∈ strategy.numbers, IsInt64 n := by
    intro n hn
    rcases given_of_strategyOf h hn with rfl | ⟨field, hf, m, hm, hpos, rfl⟩
    · exact isInt64_one
    · rw [Int.toNat_of_nonneg (by omega)]
      exact (hc.field field hf).isInt64 hm
  cases strategy with
  | position rule =>
    exact ⟨hnumbers rule.start List.mem_cons_self, hnumbers rule.length (.tail _ (.head _))⟩
  | character rule => exact hnumbers rule.start List.mem_cons_self
  | conditional rule => exact hnumbers rule.start List.mem_cons_self
  | multiField rule =>
    intro test ht
    have hmem : ∀ n ∈ [test.start, test.length], IsInt64 n := fun n hn =>
      hnumbers n (List.mem_flatMap.2 ⟨test, ht, hn⟩)
    exact ⟨hmem test.start List.mem_cons_self, hmem test.length (.tail _ (.head _))⟩
  | pattern rule => trivial
  | undivided => trivial

/-! ## The start of a record -/

/-- The width of a record type code is a signed 64-bit number. -/
theorem isInt64_width {strategy : Classification.Strategy} (h : strategy.Fits) :
    IsInt64 strategy.width := by
  cases strategy with
  | position rule => exact h.2
  | character rule => exact isInt64_one
  | conditional rule => exact isInt64_one
  | pattern rule => exact isInt64_zero
  | undivided => exact isInt64_zero
  | multiField rule =>
    have hmax : ∀ (lengths : List Nat) (n : Nat), IsInt64 n → (∀ m ∈ lengths, IsInt64 (m : Nat)) →
        IsInt64 (lengths.foldl max n : Nat) := by
      intro lengths
      induction lengths with
      | nil => exact fun n hn _ => hn
      | cons m rest ih =>
        intro n hn hm
        refine ih (max n m) ?_ fun k hk => hm k (List.mem_cons_of_mem _ hk)
        rcases Nat.le_total n m with hle | hle
        · rw [Nat.max_eq_right hle]
          exact hm m List.mem_cons_self
        · rw [Nat.max_eq_left hle]
          exact hn
    refine hmax _ 0 isInt64_zero fun m hm => ?_
    obtain ⟨test, ht, rfl⟩ := List.mem_map.1 hm
    exact (h test ht).2

/-- The first position behind the record type code is a 64-bit number. -/
theorem startPosition_add_codeWidth_le {engine : Pattern.Engine} {config : Config} {rules : Rules}
    (h : interpretWith engine config = .ok rules) (hc : config.Fits) :
    rules.startPosition + rules.codeWidth ≤ Text.maxWord64 := by
  obtain ⟨hs, -, -, -, hpos, -, -, hstart, -⟩ := interpret_eq_ok_iff.1 h
  have hposition : IsInt64 rules.startPosition := by
    rw [hstart, Int.toNat_of_nonneg hpos]
    exact hc.startPosition
  refine hposition.add_le ?_
  unfold codeWidth
  split
  · exact isInt64_width (fits_of_strategyOf hs hc)
  · exact isInt64_zero

end DataDivision.Rules
