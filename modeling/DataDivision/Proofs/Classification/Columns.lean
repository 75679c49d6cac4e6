import DataDivision.Proofs.Rules.Defaults
import DataDivision.Proofs.Rules.Numbers

/-!
Columns of record type codes.

Each rule of a strategy looks at fixed columns of a line (`Strategy.reads`), and what it says
follows from the characters there (`classify_congr_of_reads`).  For interpreted rules these columns
lie in the range that is blanked before entries are read, and a record sets no more bytes aside for
the code than the range is wide (`classify_reads_columns`).
-/

namespace DataDivision.Classification

/-! ## Reading columns -/

/-- A cut of a line reads its columns one after another, and fails at one that the line does not
have. -/
theorem cutColumns?_eq (text : List Char) (start length : Nat) :
    cutColumns? text start length =
      (List.range' (start - 1) length).mapM fun i => text[i]? := by
  unfold cutColumns?
  generalize start - 1 = s
  induction length generalizing s with
  | zero => simp
  | succ n ih =>
    rw [List.range'_succ, List.mapM_cons]
    cases hc : text[s]? with
    | none =>
      have hdrop : text.drop s = [] := List.drop_eq_nil_of_le (List.getElem?_eq_none_iff.1 hc)
      simp [hdrop]
    | some c =>
      obtain ⟨hs, hget⟩ := List.getElem?_eq_some_iff.1 hc
      have hdrop : text.drop s = c :: text.drop (s + 1) := by
        rw [List.drop_eq_getElem_cons hs, hget]
      rw [← ih (s + 1), hdrop]
      simp only [List.take_succ_cons, List.length_cons, Nat.add_right_cancel_iff]
      split <;> rfl

theorem cutColumns?_congr {a b : List Char} {start length : Nat}
    (h : ∀ i ∈ List.range' (start - 1) length, a[i]? = b[i]?) :
    cutColumns? a start length = cutColumns? b start length := by
  have hmap : (List.range' (start - 1) length).map (fun i => a[i]?) =
      (List.range' (start - 1) length).map fun i => b[i]? := List.map_congr_left h
  have hid : ∀ text : List Char, cutColumns? text start length =
      ((List.range' (start - 1) length).map fun i => text[i]?).mapM id := fun text => by
    rw [cutColumns?_eq, List.mapM_map]
    rfl
  rw [hid, hid, hmap]

namespace Strategy

/-- The columns that each rule of a strategy looks at.  A pattern looks at whole lines and is left
out. -/
def reads : Strategy → List (List Nat)
  | position rule => [List.range' (rule.start - 1) rule.length]
  | character rule => [List.range' (rule.start - 1) 1]
  | conditional rule => [List.range' (rule.start - 1) 1]
  | multiField rule => rule.tests.map fun test => List.range' (test.start - 1) test.length
  | pattern _ | undivided => []

/-- A line is classified by its characters in the columns that are looked at. -/
theorem classify_congr_of_reads {strategy : Strategy}
    (hp : ∀ rule, strategy ≠ .pattern rule) {a b : List Char}
    (h : ∀ columns ∈ strategy.reads, ∀ i ∈ columns, a[i]? = b[i]?) :
    strategy.classify a = strategy.classify b := by
  cases strategy with
  | position rule =>
    have hcut := cutColumns?_congr (h _ List.mem_cons_self)
    simp only [classify, PositionRule.classify, PositionRule.key?, hcut]
  | character rule =>
    have hcut := cutColumns?_congr (h _ List.mem_cons_self)
    simp only [classify, CharacterRule.classify, hcut]
  | conditional rule =>
    have hchar : a[rule.start - 1]? = b[rule.start - 1]? :=
      h _ List.mem_cons_self _ List.mem_cons_self
    simp only [classify, ConditionalRule.classify, hchar]
  | pattern rule => exact absurd rfl (hp rule)
  | multiField rule =>
    obtain ⟨tests, trimValues⟩ := rule
    simp only [classify, MultiFieldRule.classify]
    induction tests with
    | nil => rfl
    | cons test rest ih =>
      obtain ⟨htest, hrest⟩ := List.forall_mem_cons.1 h
      rw [List.findSome?_cons, List.findSome?_cons, cutColumns?_congr htest, ih (by simp) hrest]
  | undivided => rfl

/-! ## The range of columns -/

theorem foldl_max_le_iff {l : List Nat} {a b : Nat} :
    l.foldl max a ≤ b ↔ a ≤ b ∧ ∀ n ∈ l, n ≤ b := by
  induction l generalizing a with
  | nil => simp
  | cons n l ih => rw [List.foldl_cons, ih, Nat.max_le, List.forall_mem_cons, and_assoc]

theorem le_foldl_min_iff {l : List Nat} {a b : Nat} :
    b ≤ l.foldl min a ↔ b ≤ a ∧ ∀ n ∈ l, b ≤ n := by
  induction l generalizing a with
  | nil => simp
  | cons n l ih => rw [List.foldl_cons, ih, Nat.le_min, List.forall_mem_cons, and_assoc]

/-- The range of several tests reaches from the first column of any to the last one. -/
theorem exists_columns?_multiField {rule : MultiFieldRule} {columns : Entry.Columns}
    (h : (multiField rule).columns? = some columns) :
    ∃ start stop, columns = ⟨start - 1, stop - 1⟩ ∧
      ∀ test ∈ rule.tests, start ≤ test.start ∧ test.start + test.length ≤ stop := by
  unfold columns? at h
  dsimp only at h
  split at h
  · cases h
  · rename_i first rest htests
    obtain ⟨hfirst, hstarts⟩ := le_foldl_min_iff.1
      (Nat.le_refl ((rest.map (·.start)).foldl min first.start))
    obtain ⟨hlast, hstops⟩ := foldl_max_le_iff.1
      (Nat.le_refl ((rest.map fun t => t.start + t.length).foldl max (first.start + first.length)))
    refine ⟨_, _, (Option.some.inj h).symm, ?_⟩
    rw [htests]
    intro test ht
    rcases List.mem_cons.1 ht with rfl | ht
    · exact ⟨hfirst, hlast⟩
    · exact ⟨hstarts _ (List.mem_map_of_mem ht),
        hstops _ (List.mem_map_of_mem (f := fun t : FieldMatch => t.start + t.length) ht)⟩

variable {strategy : Strategy} {columns : Entry.Columns}

theorem contains_of_mem_range' {first start length stop i : Nat} (hs : 0 < start)
    (hfirst : first ≤ start) (hstop : start + length ≤ stop)
    (hi : i ∈ List.range' (start - 1) length) :
    (⟨first - 1, stop - 1⟩ : Entry.Columns).contains i = true := by
  rw [List.mem_range'_1] at hi
  simp only [Entry.Columns.contains, Bool.and_eq_true, decide_eq_true_eq]
  omega

/-- What is looked at lies in the range. -/
theorem contains_of_mem_reads (hpos : ∀ n ∈ strategy.numbers, 0 < n)
    (h : strategy.columns? = some columns) :
    ∀ read ∈ strategy.reads, ∀ i ∈ read, columns.contains i = true := by
  have hone : ∀ start length, 0 < start → ∀ read ∈ [List.range' (start - 1) length], ∀ i ∈ read,
      (⟨start - 1, start + length - 1⟩ : Entry.Columns).contains i = true := by
    intro start length hs read hread i hi
    obtain rfl := List.mem_singleton.1 hread
    exact contains_of_mem_range' hs (Nat.le_refl _) (Nat.le_refl _) hi
  cases strategy with
  | position rule =>
    obtain rfl := Option.some.inj h
    exact hone rule.start rule.length (hpos _ List.mem_cons_self)
  | character rule =>
    obtain rfl := Option.some.inj h
    exact hone rule.start 1 (hpos _ List.mem_cons_self)
  | conditional rule =>
    obtain rfl := Option.some.inj h
    exact hone rule.start 1 (hpos _ List.mem_cons_self)
  | multiField rule =>
    obtain ⟨first, stop, rfl, hrange⟩ := exists_columns?_multiField h
    intro read hread i hi
    obtain ⟨test, ht, rfl⟩ := List.mem_map.1 hread
    have hs := hpos test.start (List.mem_flatMap.2 ⟨test, ht, List.mem_cons_self⟩)
    exact contains_of_mem_range' hs (hrange test ht).1 (hrange test ht).2 hi
  | pattern rule => cases h
  | undivided => cases h

/-- The code is as wide as the range, unless several tests share the range. -/
theorem width_of_columns? (hpos : ∀ n ∈ strategy.numbers, 0 < n)
    (h : strategy.columns? = some columns) :
    strategy.width ≤ columns.stop - columns.start ∧
      ((∀ rule, strategy ≠ .multiField rule) →
        strategy.width = columns.stop - columns.start) := by
  have hone : ∀ start length, 0 < start → length = start + length - 1 - (start - 1) := by omega
  cases strategy with
  | position rule =>
    obtain rfl := Option.some.inj h
    have hwidth := hone rule.start rule.length (hpos _ List.mem_cons_self)
    exact ⟨Nat.le_of_eq hwidth, fun _ => hwidth⟩
  | character rule =>
    obtain rfl := Option.some.inj h
    have hwidth := hone rule.start 1 (hpos _ List.mem_cons_self)
    exact ⟨Nat.le_of_eq hwidth, fun _ => hwidth⟩
  | conditional rule =>
    obtain rfl := Option.some.inj h
    have hwidth := hone rule.start 1 (hpos _ List.mem_cons_self)
    exact ⟨Nat.le_of_eq hwidth, fun _ => hwidth⟩
  | multiField rule =>
    refine ⟨?_, fun hne => absurd rfl (hne rule)⟩
    obtain ⟨first, stop, rfl, hrange⟩ := exists_columns?_multiField h
    refine foldl_max_le_iff.2 ⟨Nat.zero_le _, fun n hn => ?_⟩
    obtain ⟨test, ht, rfl⟩ := List.mem_map.1 hn
    have := hpos test.start (List.mem_flatMap.2 ⟨test, ht, List.mem_cons_self⟩)
    have := hrange test ht
    dsimp only
    omega
  | pattern rule => cases h
  | undivided => cases h

/-- A strategy looks at fixed columns, unless it has a pattern or does not tell lines apart. -/
theorem columns?_eq_none_iff (hne : ∀ rule, strategy = .multiField rule → rule.tests ≠ []) :
    strategy.columns? = none ↔ (∃ rule, strategy = .pattern rule) ∨ strategy = .undivided := by
  cases strategy with
  | position rule => simp [columns?]
  | character rule => simp [columns?]
  | conditional rule => simp [columns?]
  | pattern rule => simp [columns?]
  | multiField rule =>
    have htests := hne rule rfl
    unfold columns?
    dsimp only
    split
    · rename_i hnil
      exact absurd hnil htests
    · simp
  | undivided => simp [columns?]

end Strategy

/-! ## Interpreted rules -/

/-- Interpreted rules classify a line by the characters in the range of columns that is taken for
the record type code: every rule looks at columns in the range, and the code is as wide as the
range, or at most so with several tests. -/
theorem classify_reads_columns {engine : Pattern.Engine} {config : Rules.Config} {rules : Rules}
    (h : Rules.interpretWith engine config = .ok rules) :
    (rules.strategy.columns? = none ↔
      (∃ rule, rules.strategy = .pattern rule) ∨ rules.strategy = .undivided) ∧
    ∀ columns, rules.strategy.columns? = some columns →
      (∀ a b : List Char, (∀ i, columns.contains i = true → a[i]? = b[i]?) →
        rules.strategy.classify a = rules.strategy.classify b) ∧
      (∀ a b : List Char, (∀ read ∈ rules.strategy.reads, ∀ i ∈ read, a[i]? = b[i]?) →
        rules.strategy.classify a = rules.strategy.classify b) ∧
      (∀ read ∈ rules.strategy.reads, ∀ i ∈ read, columns.contains i = true) ∧
      rules.strategy.width ≤ columns.stop - columns.start ∧
      ((∀ rule, rules.strategy ≠ .multiField rule) →
        rules.strategy.width = columns.stop - columns.start) := by
  obtain ⟨hs, -⟩ := Rules.interpret_eq_ok_iff.1 h
  refine ⟨Strategy.columns?_eq_none_iff fun rule hr => Rules.tests_ne_nil_of_strategyOf (hr ▸ hs), ?_⟩
  intro columns hcolumns
  have hpos : ∀ n ∈ rules.strategy.numbers, 0 < n := fun n hn => Rules.pos_of_strategyOf hs hn
  have hpattern : ∀ rule, rules.strategy ≠ .pattern rule := by
    intro rule hr
    rw [hr] at hcolumns
    cases hcolumns
  have hcontains := Strategy.contains_of_mem_reads hpos hcolumns
  refine ⟨fun a b hab => ?_, fun a b hab => Strategy.classify_congr_of_reads hpattern hab,
    hcontains, Strategy.width_of_columns? hpos hcolumns⟩
  exact Strategy.classify_congr_of_reads hpattern fun read hread i hi =>
    hab i (hcontains read hread i hi)

/-- A code of two characters behind the place of one of a single character. -/
def twoTests : Rules.Config where
  ruleType := "multi-field"
  recordTypeField := some {
    multiFieldRules := [
      { start := some 3, length := some 2, expectedValue := some "HD"
        recordType := some "HEADER" },
      { start := some 1, length := some 1, expectedValue := some "T"
        recordType := some "TRAILER" }] }

/-- Both tests look at columns in the range from the first one to the fourth. -/
theorem classify_reads_columns_two_tests :
    ∃ rules, Rules.interpretWith .plain twoTests = .ok rules ∧
      rules.strategy.columns? = some ⟨0, 4⟩ ∧ rules.strategy.width = 2 ∧
      rules.strategy.classify "T HD 01 A.".toList = some "HEADER" ∧
      rules.strategy.classify "T HD    05 B.".toList =
        rules.strategy.classify "T HD 01 A.".toList := by
  let strategy : Strategy := .multiField ⟨[⟨3, 2, "HD", "HEADER"⟩, ⟨1, 1, "T", "TRAILER"⟩], true⟩
  have hi : Rules.interpretWith .plain twoTests = .ok (.standard twoTests strategy) :=
    Rules.interpret_eq_standard rfl rfl rfl
  have hagree : ∀ i, (⟨0, 4⟩ : Entry.Columns).contains i = true →
      "T HD    05 B.".toList[i]? = "T HD 01 A.".toList[i]? := by
    intro i hi
    simp only [Entry.Columns.contains, Nat.zero_le, decide_true, Bool.true_and,
      decide_eq_true_eq] at hi
    have hall : ∀ i < 4, "T HD    05 B.".toList[i]? = "T HD 01 A.".toList[i]? := by decide +kernel
    exact hall i hi
  have hsame := ((classify_reads_columns hi).2 ⟨0, 4⟩ rfl).1 _ _ hagree
  exact ⟨_, hi, rfl, rfl, by decide +kernel, hsame⟩

end DataDivision.Classification
