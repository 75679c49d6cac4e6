import DataDivision.Picture.Basic
import DataDivision.Proofs.Results
import DataDivision.Proofs.Text.Characters
import Mathlib.Algebra.Ring.Nat

/-!
The grammar of pictures.

A picture is a row of elements: symbols with their counts, and the pairs `CR` and `DB`.  It is
written as runs, each with its count in parentheses or without.  The pictures that are accepted are
just those that are made of known elements and keep within the limits, and they are measured by
adding up their elements (`analyze_eq_ok_iff`).
-/

namespace DataDivision.Picture

/-! ## Runs as they are written -/

/-- The text is the number in parentheses. -/
def IsCount (text : List Char) (n : Nat) : Prop :=
  ∃ digits, text = '(' :: (digits ++ [')']) ∧ Text.isDigits digits = true ∧
    Text.digitsValue digits = n

/-- A run is written as its symbol with the count behind it, which may be left out if it is one. -/
inductive Run.IsWritten : Run → List Char → Prop
  | plain {symbol : Char} : symbol ≠ '(' → symbol ≠ ')' → IsWritten ⟨symbol, 1⟩ [symbol]
  | counted {symbol : Char} {count : List Char} {n : Nat} : symbol ≠ '(' → symbol ≠ ')' →
    IsCount count n → 1 ≤ n → n ≤ maxLength → IsWritten ⟨symbol, n⟩ (symbol :: count)

/-- Runs written one after another. -/
inductive AreWritten : List Run → List Char → Prop
  | nil : AreWritten [] []
  | cons {run : Run} {runs : List Run} {text rest : List Char} : run.IsWritten text →
    AreWritten runs rest → AreWritten (run :: runs) (text ++ rest)

/-! ## Elements -/

/-- What a picture is made of: a symbol that stands by itself, or one of the pairs. -/
inductive Element
  | symbol (run : Run)
  /-- The pair `CR`. -/
  | credit
  /-- The pair `DB`. -/
  | debit
  deriving DecidableEq, Repr

namespace Element

/-- The symbols that edit what is displayed. -/
def editing : List Char := ['Z', '*', '+', '-', 'B', '0', '/', ',', '.', '$']

/-- The symbols that stand by themselves. -/
def symbols : List Char := ['9', 'X', 'A', 'V', 'P', 'S'] ++ editing

/-- The symbol, if there is one, is known. -/
def IsKnown : Element → Prop
  | symbol run => run.symbol ∈ symbols
  | _ => True

/-- The runs of an element; those of a pair stand side by side and are not repeated. -/
def runs : Element → List Run
  | symbol run => [run]
  | credit => [⟨'C', 1⟩, ⟨'R', 1⟩]
  | debit => [⟨'D', 1⟩, ⟨'B', 1⟩]

def is (c : Char) : Element → Bool
  | symbol run => run.symbol = c
  | _ => false

def isEditing : Element → Bool
  | symbol run => editing.contains run.symbol
  | _ => true

def positions : Element → Nat
  | symbol run => if run.symbol = 'V' ∨ run.symbol = 'P' ∨ run.symbol = 'S' then 0 else run.count
  | _ => 2

/-- The digits that an element displays. -/
def digits : Element → Nat
  | symbol run => if run.symbol = '9' then run.count else 0
  | _ => 0

/-- The decimal places that an element makes behind the decimal point. -/
def places : Element → Nat
  | symbol run => if run.symbol = '9' ∨ run.symbol = 'P' then run.count else 0
  | _ => 0

end Element

def positionsOf (elements : List Element) : Nat := (elements.map Element.positions).sum

/-- The decimal places of a picture: those behind its first decimal point. -/
def placesOf (elements : List Element) : Nat :=
  ((elements.dropWhile fun e => !e.is 'V').map Element.places).sum

/-- The kind of data that elements describe. -/
def categoryOf (elements : List Element) : Category :=
  if elements.any Element.isEditing then .edited
  else if elements.any (·.is 'X') || (elements.any (·.is 'A') && elements.any (·.is '9')) then
    .alphanumeric
  else if elements.any (·.is 'A') then .alphabetic
  else if elements.any (·.is 'V') then .decimal
  else .numeric

/-- The measurements of a picture that is made of the elements. -/
def measure (elements : List Element) : Picture :=
  ⟨positionsOf elements, placesOf elements, elements.any (·.is 'S'), categoryOf elements⟩

/-- The text is made of known elements and keeps within the limits. -/
structure IsMadeOf (text : List Char) (elements : List Element) : Prop where
  written : AreWritten (elements.flatMap Element.runs) text
  nonempty : elements ≠ []
  known : ∀ e ∈ elements, e.IsKnown
  positions_le : positionsOf elements ≤ maxLength
  places_le : placesOf elements ≤ maxLength

/-! ## Reading runs -/

/-- The closing parenthesis is the first one. -/
theorem eq_of_dropWhile_close {inner after : List Char} {close : Char}
    (h : inner.dropWhile (· != ')') = close :: after) :
    inner = inner.takeWhile (· != ')') ++ ')' :: after := by
  have hne : inner.dropWhile (· != ')') ≠ [] := by simp [h]
  have hclose := List.head_dropWhile_not (· != ')') hne
  obtain rfl : close = ')' := by simpa [h] using hclose
  rw [← h, List.takeWhile_append_dropWhile]

theorem not_mem_of_isDigits {digits : List Char} (h : Text.isDigits digits = true) :
    ∀ c ∈ digits, (c != ')') = true := by
  simp only [Text.isDigits, Bool.and_eq_true, List.all_eq_true] at h
  intro c hc
  rw [bne_iff_ne]
  rintro rfl
  exact absurd (h.2 _ hc) (by decide)

theorem span_close {digits : List Char} (h : Text.isDigits digits = true) (after : List Char) :
    (digits ++ ')' :: after).takeWhile (· != ')') = digits ∧
      (digits ++ ')' :: after).dropWhile (· != ')') = ')' :: after :=
  Text.span_append (not_mem_of_isDigits h) (by simp)

theorem readCount_eq_ok_iff {digits : List Char} {n : Nat} :
    readCount digits = .ok n ↔
      Text.isDigits digits = true ∧ Text.digitsValue digits = n ∧ 1 ≤ n ∧ n ≤ maxLength := by
  unfold readCount
  cases hd : Text.isDigits digits with
  | false => simp
  | true =>
    by_cases hz : Text.digitsValue digits = 0
    · simp [hz]
      omega
    · by_cases hle : Text.digitsValue digits ≤ maxLength
      · simp [hz, hle]
        omega
      · simp [hz, hle]
        omega

/-- What stands behind a run does not begin with a count. -/
def EndsRun (rest : List Char) : Prop := ∀ c ∈ rest.head?, c ≠ '('

theorem AreWritten.endsRun {runs : List Run} {text : List Char} (h : AreWritten runs text) :
    EndsRun text := by
  cases h with
  | nil => simp [EndsRun]
  | cons hrun _ => cases hrun <;> simpa [EndsRun]

/-- Reading a run takes its symbol and its count and nothing else. -/
theorem exists_readRun {run : Run} {text rest : List Char} (hrun : run.IsWritten text)
    (hrest : EndsRun rest) :
    ∃ symbol tail, text = symbol :: tail ∧ readRun symbol (tail ++ rest) = .ok (run, rest) := by
  cases hrun with
  | @plain symbol ho hc =>
    refine ⟨symbol, [], rfl, ?_⟩
    unfold readRun
    rw [if_neg (by simp [ho, hc]), List.nil_append]
    split
    · exact absurd rfl (hrest _ rfl)
    · rfl
  | @counted symbol _ n ho hc hcount hpos hle =>
    obtain ⟨digits, rfl, hdigits, hvalue⟩ := hcount
    refine ⟨symbol, _, rfl, ?_⟩
    obtain ⟨htake, hdrop⟩ := span_close hdigits rest
    have hread : readCount digits = .ok n := readCount_eq_ok_iff.2 ⟨hdigits, hvalue, hpos, hle⟩
    unfold readRun
    rw [if_neg (by simp [ho, hc])]
    simp only [List.cons_append, List.append_assoc, List.nil_append, hdrop, htake, hread]
    rfl

theorem exists_text_of_readRun {symbol : Char} {rest after : List Char} {run : Run}
    (h : readRun symbol rest = .ok (run, after)) :
    ∃ tail, rest = tail ++ after ∧ run.IsWritten (symbol :: tail) := by
  unfold readRun at h
  split at h
  · cases h
  · rename_i hsymbol
    rw [not_or] at hsymbol
    split at h
    · rename_i inner
      split at h
      · cases h
      · rename_i close tail hd
        obtain ⟨n, hn, hrun⟩ := ok_of_map h
        cases hrun
        obtain ⟨hdigits, hvalue, hpos, hle⟩ := readCount_eq_ok_iff.1 hn
        refine ⟨'(' :: (inner.takeWhile (· != ')') ++ [')']), ?_, ?_⟩
        · rw [List.cons_append, List.append_assoc, List.singleton_append,
            ← eq_of_dropWhile_close hd]
        · exact .counted hsymbol.1 hsymbol.2 ⟨_, rfl, hdigits, hvalue⟩ hpos hle
    · cases h
      exact ⟨[], rfl, .plain hsymbol.1 hsymbol.2⟩

theorem readRuns_of_areWritten {runs : List Run} {text : List Char} (h : AreWritten runs text) :
    readRuns text = .ok runs := by
  induction h with
  | nil => rw [readRuns]
  | @cons run runs text rest hrun hruns ih =>
    obtain ⟨symbol, tail, rfl, hread⟩ := exists_readRun hrun hruns.endsRun
    rw [List.cons_append, readRuns]
    split
    · rename_i e he
      rw [hread] at he
      cases he
    · rename_i r after hr
      rw [hread] at hr
      cases hr
      rw [ih]
      rfl

theorem areWritten_of_readRuns {runs : List Run} {text : List Char} (h : readRuns text = .ok runs) :
    AreWritten runs text := by
  fun_induction readRuns text generalizing runs with
  | case1 =>
    cases h
    exact .nil
  | case2 symbol rest e he => cases h
  | case3 symbol rest run after hrun ih =>
    obtain ⟨more, hmore, rfl⟩ := ok_of_map h
    obtain ⟨tail, rfl, hwritten⟩ := exists_text_of_readRun hrun
    exact .cons hwritten (ih hmore)

/-- Reading runs undoes writing them, and reads nothing else. -/
theorem readRuns_eq_ok_iff {runs : List Run} {text : List Char} :
    readRuns text = .ok runs ↔ AreWritten runs text :=
  ⟨areWritten_of_readRuns, readRuns_of_areWritten⟩

theorem Run.IsWritten.count_pos {run : Run} {text : List Char} (h : run.IsWritten text) :
    1 ≤ run.count := by
  cases h with
  | plain => exact Nat.le_refl 1
  | counted _ _ _ hpos _ => exact hpos

theorem AreWritten.count_pos {runs : List Run} {text : List Char} (h : AreWritten runs text) :
    ∀ run ∈ runs, 1 ≤ run.count := by
  induction h with
  | nil => simp
  | cons hrun _ ih => exact List.forall_mem_cons.2 ⟨hrun.count_pos, ih⟩

/-! ## Measuring elements -/

theorem places_eq_zero {e : Element} (h : e.is 'V' = true) : e.places = 0 := by
  cases e with
  | symbol run =>
    have hV : run.symbol = 'V' := of_decide_eq_true h
    simp [Element.places, hV]
  | credit => rfl
  | debit => rfl

/-- Places are counted from the decimal point on. -/
theorem placesOf_cons (e : Element) (rest : List Element) :
    placesOf (e :: rest) = if e.is 'V' then (rest.map Element.places).sum else placesOf rest := by
  cases hV : e.is 'V' with
  | true => simp [placesOf, hV, places_eq_zero hV]
  | false => simp [placesOf, hV]

namespace Tally

/-- The tally with one more element, whatever the limit. -/
def plus (t : Tally) (e : Element) : Tally where
  positions := t.positions + e.positions
  places := if t.afterPoint then t.places + e.places else t.places
  digits := t.digits + e.digits
  signed := t.signed || e.is 'S'
  afterPoint := t.afterPoint || e.is 'V'
  alphabetic := t.alphabetic || e.is 'A'
  alphanumeric := t.alphanumeric || e.is 'X'
  edited := t.edited || e.isEditing

theorem addPlaces_eq (t : Tally) (n : Nat) :
    t.addPlaces n = { t with places := if t.afterPoint then t.places + n else t.places } := by
  unfold addPlaces
  split <;> rfl

/-- A known symbol is taken in, and refused only if there is no room for its positions. -/
theorem addRun_eq {t : Tally} {run : Run} (hrun : run.symbol ∈ Element.symbols)
    (ht : t.positions ≤ maxLength) :
    t.addRun run = if (t.plus (.symbol run)).positions ≤ maxLength then .ok (t.plus (.symbol run))
      else .error .tooLong := by
  obtain ⟨symbol, count⟩ := run
  rcases List.mem_append.1 hrun with hletter | hediting
  · simp only [List.mem_cons, List.not_mem_nil, or_false] at hletter
    rcases hletter with rfl | rfl | rfl | rfl | rfl | rfl <;>
    simp [addRun, plus, occupy, addPlaces_eq, isEditing, Element.positions, Element.digits,
      Element.places, Element.is, Element.isEditing, Element.editing, ht]
  · have hother : ∀ c ∈ Element.editing, c ∉ ['9', 'X', 'A', 'V', 'P', 'S'] := by
      simp [Element.editing]
    have hne := hother symbol hediting
    have hmem : isEditing symbol = true := List.contains_iff_mem.2 hediting
    simp only [List.mem_cons, List.not_mem_nil, or_false, not_or] at hne
    simp [addRun, plus, occupy, hmem, hne, Element.positions, Element.digits, Element.places,
      Element.is, Element.isEditing, hediting]

theorem mem_symbols_of_addRun {t t' : Tally} {run : Run} (h : t.addRun run = .ok t') :
    run.symbol ∈ Element.symbols := by
  by_contra hmem
  simp only [Element.symbols, List.mem_append, List.mem_cons, List.not_mem_nil, or_false,
    not_or] at hmem
  obtain ⟨⟨h9, hX, hA, hV, hP, hS⟩, hediting⟩ := hmem
  have hnone : isEditing run.symbol = false := by simpa [isEditing, Element.editing] using hediting
  simp [addRun, h9, hX, hA, hV, hP, hS, hnone] at h

/-- The first symbols of the pairs do not stand by themselves. -/
theorem isPair_eq_false {run : Run} (h : run.symbol ∈ Element.symbols) (next : Run) :
    isPair run next = false := by
  have hfirst : ∀ c ∈ Element.symbols, c ≠ 'C' ∧ c ≠ 'D' := by
    simp [Element.symbols, Element.editing]
  obtain ⟨hC, hD⟩ := hfirst _ h
  have hne : ∀ c, run.symbol ≠ c → (run == ⟨c, 1⟩) = false := fun c hc =>
    beq_false_of_ne fun hrun => hc (congrArg Run.symbol hrun)
  rw [isPair, hne 'C' hC, hne 'D' hD]
  rfl

theorem plus_pair {t : Tally} {e : Element} (he : e = .credit ∨ e = .debit) :
    t.plus e = { t with positions := t.positions + 2, edited := true } := by
  rcases he with rfl | rfl <;>
  simp [plus, Element.positions, Element.digits, Element.places, Element.is, Element.isEditing]

theorem addRuns_pair {t : Tally} {first second : Run} (h : isPair first second = true)
    (rest : List Run) :
    t.addRuns (first :: second :: rest) = if t.positions + 2 ≤ maxLength then
      { t with positions := t.positions + 2, edited := true }.addRuns rest
      else .error .tooLong := by
  rw [addRuns, if_pos h, occupy]
  split <;> rfl

/-- The runs of an element are taken in together, and refused only if there is no room for its
positions. -/
theorem addRuns_cons {t : Tally} {e : Element} (he : e.IsKnown) (ht : t.positions ≤ maxLength)
    (rest : List Run) :
    t.addRuns (e.runs ++ rest) = if (t.plus e).positions ≤ maxLength then (t.plus e).addRuns rest
      else .error .tooLong := by
  cases e with
  | symbol run =>
    have hadd := addRun_eq he ht
    cases rest with
    | nil => simp only [Element.runs, List.append_nil, addRuns, hadd]
    | cons next rest =>
      rw [Element.runs, List.singleton_append, addRuns, isPair_eq_false he,
        if_neg Bool.false_ne_true, hadd]
      split <;> rfl
  | credit =>
    rw [plus_pair (.inl rfl)]
    exact addRuns_pair rfl rest
  | debit =>
    rw [plus_pair (.inr rfl)]
    exact addRuns_pair rfl rest

theorem positions_le_foldl_plus (t : Tally) (elements : List Element) :
    t.positions ≤ (elements.foldl plus t).positions := by
  induction elements generalizing t with
  | nil => exact Nat.le_refl _
  | cons e rest ih => exact Nat.le_trans (Nat.le_add_right _ _) (ih (t.plus e))

/-- The runs of known elements are taken in, and refused only if there is no room for all
positions: where there is room in the end there is room all the way. -/
theorem addRuns_elements {t : Tally} {elements : List Element} (h : ∀ e ∈ elements, e.IsKnown)
    (ht : t.positions ≤ maxLength) :
    t.addRuns (elements.flatMap Element.runs) =
      if (elements.foldl plus t).positions ≤ maxLength then .ok (elements.foldl plus t)
      else .error .tooLong := by
  induction elements generalizing t with
  | nil => simp [addRuns, ht]
  | cons e rest ih =>
    obtain ⟨he, hrest⟩ := List.forall_mem_cons.1 h
    rw [List.flatMap_cons, addRuns_cons he ht, List.foldl_cons]
    by_cases hroom : (t.plus e).positions ≤ maxLength
    · rw [if_pos hroom, ih hrest hroom]
    · have hle := positions_le_foldl_plus (t.plus e) rest
      rw [if_neg hroom, if_neg (by omega)]

/-- Only runs of known elements are taken in. -/
theorem exists_elements_of_addRuns {t t' : Tally} {runs : List Run} (h : t.addRuns runs = .ok t') :
    ∃ elements : List Element, runs = elements.flatMap Element.runs ∧
      ∀ e ∈ elements, e.IsKnown := by
  fun_induction addRuns t runs with
  | case1 t => exact ⟨[], rfl, by simp⟩
  | case2 t run =>
    have hrun : (Element.symbol run).IsKnown := mem_symbols_of_addRun h
    exact ⟨[.symbol run], rfl, List.forall_mem_singleton.2 hrun⟩
  | case3 t first second rest hpair ih =>
    obtain ⟨u, -, hrest⟩ := ok_of_bind h
    obtain ⟨elements, rfl, hknown⟩ := ih u hrest
    simp only [isPair, Bool.or_eq_true, Bool.and_eq_true, beq_iff_eq] at hpair
    rcases hpair with ⟨rfl, rfl⟩ | ⟨rfl, rfl⟩
    · exact ⟨.credit :: elements, rfl, List.forall_mem_cons.2 ⟨trivial, hknown⟩⟩
    · exact ⟨.debit :: elements, rfl, List.forall_mem_cons.2 ⟨trivial, hknown⟩⟩
  | case4 t first second rest hpair ih =>
    obtain ⟨u, hu, hrest⟩ := ok_of_bind h
    obtain ⟨elements, helements, hknown⟩ := ih u hrest
    rw [helements]
    exact ⟨.symbol first :: elements, rfl,
      List.forall_mem_cons.2 ⟨mem_symbols_of_addRun hu, hknown⟩⟩

/-- The tally of elements, one measure at a time. -/
theorem foldl_plus (t : Tally) (elements : List Element) :
    elements.foldl plus t =
      { positions := t.positions + positionsOf elements
        places := t.places + if t.afterPoint then (elements.map Element.places).sum
          else placesOf elements
        digits := t.digits + (elements.map Element.digits).sum
        signed := t.signed || elements.any (·.is 'S')
        afterPoint := t.afterPoint || elements.any (·.is 'V')
        alphabetic := t.alphabetic || elements.any (·.is 'A')
        alphanumeric := t.alphanumeric || elements.any (·.is 'X')
        edited := t.edited || elements.any Element.isEditing } := by
  induction elements generalizing t with
  | nil => simp [positionsOf, placesOf]
  | cons e rest ih =>
    rw [List.foldl_cons, ih, placesOf_cons]
    simp only [plus, positionsOf, List.map_cons, List.sum_cons, List.any_cons, Bool.or_assoc,
      Nat.add_assoc, mk.injEq, true_and, and_true]
    by_cases hafter : t.afterPoint = true <;> by_cases hV : e.is 'V' = true <;>
    simp [hafter, hV, Nat.add_assoc]

end Tally

/-- Digits are displayed just if there is a `9`, since no count is zero. -/
theorem digits_pos_iff {elements : List Element}
    (hpos : ∀ run ∈ elements.flatMap Element.runs, 1 ≤ run.count) :
    0 < (elements.map Element.digits).sum ↔ elements.any (·.is '9') = true := by
  induction elements with
  | nil => simp
  | cons e rest ih =>
    rw [List.flatMap_cons, List.forall_mem_append] at hpos
    have hdigits : 0 < e.digits ↔ e.is '9' = true := by
      cases e with
      | symbol run =>
        have hcount := hpos.1 run List.mem_cons_self
        simp only [Element.digits, Element.is, decide_eq_true_eq]
        split <;> simp_all
        omega
      | credit => simp [Element.digits, Element.is]
      | debit => simp [Element.digits, Element.is]
    rw [List.map_cons, List.sum_cons, List.any_cons, Bool.or_eq_true, ← hdigits, ← ih hpos.2]
    omega

theorem category_foldl_plus {elements : List Element}
    (hpos : ∀ run ∈ elements.flatMap Element.runs, 1 ≤ run.count) :
    (elements.foldl Tally.plus {}).category = categoryOf elements := by
  have hdigits : decide (0 < (elements.map Element.digits).sum) = elements.any (·.is '9') := by
    rw [Bool.eq_iff_iff, decide_eq_true_iff, digits_pos_iff hpos]
  simp [Tally.foldl_plus, Tally.category, categoryOf, hdigits]

theorem finish_foldl_plus {elements : List Element}
    (hpos : ∀ run ∈ elements.flatMap Element.runs, 1 ≤ run.count) :
    (elements.foldl Tally.plus {}).finish =
      if placesOf elements ≤ maxLength then .ok (measure elements) else .error .tooLong := by
  rw [Tally.finish, category_foldl_plus hpos, Tally.foldl_plus]
  simp [measure]

/-! ## Accepted pictures -/

/-- Reading and measuring the runs of a text that is not empty. -/
theorem analyzeChars_eq_ok_iff {cs : List Char} {p : Picture} :
    analyzeChars cs = .ok p ↔ (Text.trim cs).map Char.toUpper ≠ [] ∧ ∃ runs t,
      readRuns ((Text.trim cs).map Char.toUpper) = .ok runs ∧ ({} : Tally).addRuns runs = .ok t ∧
        t.finish = .ok p := by
  unfold analyzeChars
  dsimp only
  split
  · rename_i hempty
    simp [List.isEmpty_iff.1 hempty]
  · rename_i hempty
    rw [List.isEmpty_iff] at hempty
    constructor
    · intro h
      obtain ⟨runs, hruns, h⟩ := ok_of_bind h
      obtain ⟨t, ht, hfinish⟩ := ok_of_bind h
      exact ⟨hempty, runs, t, hruns, ht, hfinish⟩
    · rintro ⟨-, runs, t, hruns, ht, hfinish⟩
      rw [hruns]
      change ({} : Tally).addRuns runs >>= Tally.finish = .ok p
      rw [ht]
      exact hfinish

/-- Only no elements write the empty text. -/
theorem eq_nil_iff_of_areWritten {elements : List Element} {text : List Char}
    (h : AreWritten (elements.flatMap Element.runs) text) : text = [] ↔ elements = [] := by
  cases elements with
  | nil =>
    cases h
    simp
  | cons e rest =>
    obtain ⟨run, runs, hruns⟩ : ∃ run runs, (e :: rest).flatMap Element.runs = run :: runs := by
      cases e <;> exact ⟨_, _, rfl⟩
    rw [hruns] at h
    cases h with
    | cons hrun _ => cases hrun <;> simp

/-- Where there is room for all positions, elements are taken in. -/
theorem addRuns_eq_ok_iff {elements : List Element} {t : Tally} (h : ∀ e ∈ elements, e.IsKnown) :
    ({} : Tally).addRuns (elements.flatMap Element.runs) = .ok t ↔
      positionsOf elements ≤ maxLength ∧ elements.foldl Tally.plus {} = t := by
  have hpositions : (elements.foldl Tally.plus {}).positions = positionsOf elements := by
    simp [Tally.foldl_plus]
  rw [Tally.addRuns_elements h (Nat.zero_le _), hpositions]
  by_cases hroom : positionsOf elements ≤ maxLength
  · simp [hroom]
  · simp [hroom]

theorem exists_isMadeOf_of_analyzeChars {cs : List Char} {p : Picture}
    (h : analyzeChars cs = .ok p) : ∃ elements : List Element,
      IsMadeOf ((Text.trim cs).map Char.toUpper) elements ∧ p = measure elements := by
  obtain ⟨hne, runs, t, hruns, ht, hfinish⟩ := analyzeChars_eq_ok_iff.1 h
  obtain ⟨elements, rfl, hknown⟩ := Tally.exists_elements_of_addRuns ht
  obtain ⟨hpositions, rfl⟩ := (addRuns_eq_ok_iff hknown).1 ht
  have hwritten := readRuns_eq_ok_iff.1 hruns
  have hnonempty := mt (eq_nil_iff_of_areWritten hwritten).2 hne
  rw [finish_foldl_plus hwritten.count_pos] at hfinish
  split at hfinish
  · rename_i hplaces
    exact ⟨elements, ⟨hwritten, hnonempty, hknown, hpositions, hplaces⟩,
      (Except.ok.inj hfinish).symm⟩
  · cases hfinish

theorem IsMadeOf.analyzeChars_eq {cs : List Char} {elements : List Element}
    (h : IsMadeOf ((Text.trim cs).map Char.toUpper) elements) :
    analyzeChars cs = .ok (measure elements) := by
  have hne := mt (eq_nil_iff_of_areWritten h.written).1 h.nonempty
  have hadd := (addRuns_eq_ok_iff h.known).2 ⟨h.positions_le, rfl⟩
  refine analyzeChars_eq_ok_iff.2 ⟨hne, _, _, readRuns_eq_ok_iff.2 h.written, hadd, ?_⟩
  rw [finish_foldl_plus h.written.count_pos, if_pos h.places_le]

/-- A text is accepted just if it is made of known elements within the limits, and its measurements
are theirs. -/
theorem analyze_eq_ok_iff (text : String) (p : Picture) :
    analyze text = .ok p ↔ ∃ elements : List Element,
      IsMadeOf ((Text.trim text.toList).map Char.toUpper) elements ∧ p = measure elements := by
  constructor
  · exact exists_isMadeOf_of_analyzeChars
  · rintro ⟨elements, hmade, rfl⟩
    exact hmade.analyzeChars_eq

/-- A `D` makes a pair with the first `B` behind it, and a second decimal point changes nothing. -/
example : analyze " s9(3)v(2)9p(04)vdbb " =
    .ok (measure [.symbol ⟨'S', 1⟩, .symbol ⟨'9', 3⟩, .symbol ⟨'V', 2⟩, .symbol ⟨'9', 1⟩,
      .symbol ⟨'P', 4⟩, .symbol ⟨'V', 1⟩, .debit, .symbol ⟨'B', 1⟩]) := by
  decide +kernel

end DataDivision.Picture
