import DataDivision.Picture.Expansion
import DataDivision.Proofs.Picture.Symbols
import Mathlib.Data.List.Basic

/-!
Pictures written out.

Writing out an accepted picture leaves its measurements as they are, and they can be counted off the
characters (`measurements_of_expansion`).  A text that is not accepted may be written out to a text
with repeats of its own, so that a second time makes it longer: a second time changes nothing just
if the first one leaves neither repeats nor blanks at an end (`expand_expand`).
-/

namespace DataDivision.Picture

/-! ## Counts -/

/-- A count is read off the front if it is a number of 64 bits. -/
theorem repeat?_eq_some_iff {cs after : List Char} {n : Nat} :
    repeat? cs = some (n, after) ↔
      ∃ count, IsCount count n ∧ n ≤ Text.maxWord64 ∧ cs = count ++ after := by
  constructor
  · intro h
    unfold repeat? at h
    split at h
    · rename_i inner
      split at h
      · cases h
      · rename_i close tail hd
        dsimp only at h
        split at h
        · rename_i hcount
          cases h
          simp only [Bool.and_eq_true, decide_eq_true_eq] at hcount
          refine ⟨_, ⟨_, rfl, hcount.1, rfl⟩, hcount.2, ?_⟩
          rw [List.cons_append, List.append_assoc, List.singleton_append,
            ← eq_of_dropWhile_close hd]
        · cases h
    · cases h
  · rintro ⟨_, ⟨digits, rfl, hdigits, rfl⟩, hle, rfl⟩
    obtain ⟨htake, hdrop⟩ := span_close hdigits after
    simp [repeat?, htake, hdrop, hdigits, hle]

theorem repeat?_eq_none {rest : List Char} (h : EndsRun rest) : repeat? rest = none := by
  unfold repeat?
  split
  · exact absurd rfl (h _ rfl)
  · rfl

theorem expandChars_cons_of_some {symbol : Char} {rest after : List Char} {n : Nat}
    (h : repeat? rest = some (n, after)) :
    expandChars (symbol :: rest) = List.replicate n symbol ++ expandChars after := by
  rw [expandChars]
  split <;> simp_all

theorem expandChars_cons_of_none {symbol : Char} {rest : List Char} (h : repeat? rest = none) :
    expandChars (symbol :: rest) = symbol :: expandChars rest := by
  rw [expandChars]
  split <;> simp_all

/-! ## Texts that are written out -/

/-- No character of the text has a count behind it. -/
def IsWrittenOut (cs : List Char) : Prop :=
  ∀ (symbol : Char) (count : List Char) (n : Nat), IsCount count n → n ≤ Text.maxWord64 →
    ¬ (symbol :: count) <:+: cs

theorem isWrittenOut_cons {c : Char} {rest : List Char} :
    IsWrittenOut (c :: rest) ↔ repeat? rest = none ∧ IsWrittenOut rest := by
  constructor
  · intro h
    refine ⟨?_, fun symbol count n hcount hle hin =>
      h symbol count n hcount hle (List.infix_cons hin)⟩
    cases hr : repeat? rest with
    | none => rfl
    | some x =>
      obtain ⟨count, hcount, hle, hrest⟩ := repeat?_eq_some_iff.1 hr
      rw [hrest] at h
      exact absurd (List.prefix_append (c :: count) x.2).isInfix (h c count x.1 hcount hle)
  · rintro ⟨hnone, hrest⟩ symbol count n hcount hle hin
    rcases List.infix_cons_iff.1 hin with ⟨after, hafter⟩ | hin
    · rw [List.cons_append, List.cons.injEq] at hafter
      obtain ⟨rfl, rfl⟩ := hafter
      rw [repeat?_eq_some_iff.2 ⟨count, hcount, hle, rfl⟩] at hnone
      cases hnone
    · exact hrest symbol count n hcount hle hin

theorem isWrittenOut_of_not_mem {cs : List Char} (h : '(' ∉ cs) : IsWrittenOut cs := by
  rintro symbol _ n ⟨digits, rfl, -, -⟩ - hin
  exact h (hin.subset (by simp))

theorem expandChars_of_isWrittenOut {cs : List Char} (h : IsWrittenOut cs) :
    expandChars cs = cs := by
  fun_induction expandChars cs with
  | case1 => rfl
  | case2 symbol rest n after hrepeat ih =>
    rw [(isWrittenOut_cons.1 h).1] at hrepeat
    cases hrepeat
  | case3 symbol rest hrepeat ih => rw [ih (isWrittenOut_cons.1 h).2]

/-- A text is part of what it is written out to only if nothing in it is a repeat: a repeat would
have to be part of the copies of its symbol. -/
theorem eq_nil_of_expandChars {cs front back : List Char}
    (h : expandChars cs = front ++ (cs ++ back)) : front = [] ∧ back = [] ∧ IsWrittenOut cs := by
  fun_induction expandChars cs generalizing front with
  | case1 =>
    obtain ⟨rfl, rfl⟩ : front = [] ∧ back = [] := by simpa using h.symm
    exact ⟨rfl, rfl, isWrittenOut_of_not_mem (by simp)⟩
  | case2 symbol rest n after hrepeat ih =>
    obtain ⟨_, ⟨digits, rfl, -, -⟩, -, rfl⟩ := repeat?_eq_some_iff.1 hrepeat
    have hcopies : ¬ (front ++ symbol :: '(' :: (digits ++ [')'])) <+: List.replicate n symbol := by
      intro hp
      have hopen : '(' = symbol := List.eq_of_mem_replicate (hp.subset (by simp))
      have hclose : ')' = symbol := List.eq_of_mem_replicate (hp.subset (by simp))
      exact absurd (hopen.trans hclose.symm) (by decide)
    have hsplit : List.replicate n symbol ++ expandChars after =
        (front ++ symbol :: '(' :: (digits ++ [')'])) ++ (after ++ back) := by
      rw [h]
      simp
    rcases List.append_eq_append_iff.1 hsplit with ⟨middle, hfront, hafter⟩ | ⟨copies, hfront, -⟩
    · obtain ⟨rfl, -, -⟩ := ih hafter
      rw [List.append_nil] at hfront
      exact absurd (hfront ▸ List.prefix_refl _) hcopies
    · exact absurd ⟨copies, hfront.symm⟩ hcopies
  | case3 symbol rest hrepeat ih =>
    cases front with
    | nil =>
      have hrest : expandChars rest = [] ++ (rest ++ back) := (List.cons.inj h).2
      obtain ⟨-, hback, hrest⟩ := ih hrest
      exact ⟨rfl, hback, isWrittenOut_cons.2 ⟨hrepeat, hrest⟩⟩
    | cons d front =>
      have hrest : expandChars rest = (front ++ [symbol]) ++ (rest ++ back) := by
        rw [(List.cons.inj h).2]
        simp
      exact absurd (ih hrest).1 (by simp)

theorem toList_expand (text : String) :
    (expand text).toList = expandChars (Text.trim text.toList) := by
  rw [expand, String.toList_ofList]

/-- Writing out a second time changes nothing just if no repeat and no blank at an end is left. -/
theorem expand_expand_eq_iff (text : String) :
    expand (expand text) = expand text ↔
      IsWrittenOut (expand text).toList ∧
        Text.trim (expand text).toList = (expand text).toList := by
  rw [← String.toList_inj, toList_expand (expand text)]
  generalize (expand text).toList = cs
  constructor
  · intro h
    obtain ⟨front, back, htrim, -, -⟩ := Text.exists_trim cs
    obtain ⟨rfl, rfl, hwritten⟩ := eq_nil_of_expandChars (h.trans htrim)
    rw [List.nil_append, List.append_nil] at htrim
    exact ⟨htrim ▸ hwritten, htrim.symm⟩
  · rintro ⟨hwritten, htrim⟩
    rw [htrim, expandChars_of_isWrittenOut hwritten]

/-! ## Upper case -/

theorem toUpper_of_isCountChar {c : Char}
    (h : isCountChar c = true ∨ isCountChar c.toUpper = true) : c.toUpper = c := by
  rcases Nat.lt_or_ge c.toNat 128 with hc | hc
  · have hall : ∀ n < 128, isCountChar (Char.ofNat n) = true ∨
        isCountChar (Char.ofNat n).toUpper = true → (Char.ofNat n).toUpper = Char.ofNat n := by
      decide +kernel
    exact Text.forall_ascii (P := fun c => isCountChar c = true ∨ isCountChar c.toUpper = true →
      c.toUpper = c) hall hc h
  · exact Text.toUpper_eq_self hc

/-- Counts have no letters. -/
theorem isCount_map_toUpper {count : List Char} {n : Nat} :
    IsCount (count.map Char.toUpper) n ↔ IsCount count n := by
  have hself : (∀ c ∈ count, c.toUpper = c) → count.map Char.toUpper = count := fun h => by
    rw [List.map_congr_left h, List.map_id']
  constructor
  · intro h
    have hupper : count.map Char.toUpper = count := hself fun c hc =>
      toUpper_of_isCountChar (.inr (h.isCountChar _ (List.mem_map_of_mem hc)))
    rwa [hupper] at h
  · intro h
    rwa [hself fun c hc => toUpper_of_isCountChar (.inl (h.isCountChar c hc))]

theorem repeat?_map_toUpper (cs : List Char) :
    repeat? (cs.map Char.toUpper) = (repeat? cs).map fun x => (x.1, x.2.map Char.toUpper) := by
  ext ⟨n, after⟩
  rw [Option.map_eq_some_iff, repeat?_eq_some_iff]
  constructor
  · rintro ⟨_, hcount, hle, hcs⟩
    obtain ⟨count, rest, rfl, rfl, rfl⟩ := List.map_eq_append_iff.1 hcs
    exact ⟨(n, rest), repeat?_eq_some_iff.2 ⟨count, isCount_map_toUpper.1 hcount, hle, rfl⟩, rfl⟩
  · rintro ⟨⟨m, rest⟩, hrepeat, heq⟩
    obtain ⟨rfl, rfl⟩ := Prod.mk.inj heq
    obtain ⟨count, hcount, hle, rfl⟩ := repeat?_eq_some_iff.1 hrepeat
    exact ⟨count.map Char.toUpper, isCount_map_toUpper.2 hcount, hle, List.map_append⟩

/-- Putting letters in upper case and writing out can be done in either order. -/
theorem expandChars_map_toUpper (cs : List Char) :
    expandChars (cs.map Char.toUpper) = (expandChars cs).map Char.toUpper := by
  fun_induction expandChars cs with
  | case1 => rw [List.map_nil, expandChars]
  | case2 symbol rest n after hrepeat ih =>
    have hupper : repeat? (rest.map Char.toUpper) = some (n, after.map Char.toUpper) := by
      rw [repeat?_map_toUpper, hrepeat, Option.map_some]
    rw [List.map_cons, expandChars_cons_of_some hupper, ih, List.map_append, List.map_replicate]
  | case3 symbol rest hrepeat ih =>
    have hupper : repeat? (rest.map Char.toUpper) = none := by
      rw [repeat?_map_toUpper, hrepeat, Option.map_none]
    rw [List.map_cons, expandChars_cons_of_none hupper, ih, List.map_cons]

/-! ## Accepted pictures -/

/-- The characters of a run that is written out. -/
def Run.chars (run : Run) : List Char := List.replicate run.count run.symbol

/-- The characters of an element that is written out. -/
def Element.chars (e : Element) : List Char := e.runs.flatMap Run.chars

/-- The characters of elements that are written out. -/
def charsOf (elements : List Element) : List Char := elements.flatMap Element.chars

theorem expandChars_of_areWritten {runs : List Run} {text : List Char} (h : AreWritten runs text) :
    expandChars text = runs.flatMap Run.chars := by
  induction h with
  | nil => rw [expandChars, List.flatMap_nil]
  | @cons run runs text rest hrun hruns ih =>
    rw [List.flatMap_cons, ← ih]
    cases hrun with
    | plain =>
      rw [List.singleton_append, expandChars_cons_of_none (repeat?_eq_none hruns.endsRun)]
      rfl
    | @counted symbol count n _ _ hcount _ hle =>
      have hword : n ≤ Text.maxWord64 := Nat.le_trans hle (by decide)
      have hrepeat : repeat? (count ++ rest) = some (n, rest) :=
        repeat?_eq_some_iff.2 ⟨count, hcount, hword, rfl⟩
      rw [List.cons_append, expandChars_cons_of_some hrepeat]
      rfl

/-- The measurements, counted off the characters of a picture that is written out. -/
def measureChars (cs : List Char) : Picture where
  displayLength := cs.countP fun c => c ∉ ['V', 'P', 'S']
  decimalPlaces := (cs.dropWhile (· != 'V')).countP fun c => c ∈ ['9', 'P']
  signed := cs.contains 'S'
  category :=
    if cs.any fun c => c ∈ Element.editing ++ ['C', 'R', 'D'] then .edited
    else if cs.contains 'X' || (cs.contains 'A' && cs.contains '9') then .alphanumeric
    else if cs.contains 'A' then .alphabetic
    else if cs.contains 'V' then .decimal
    else .numeric

namespace Element

theorem chars_symbol (run : Run) : (symbol run).chars = List.replicate run.count run.symbol := by
  simp [chars, runs, Run.chars]

theorem countP_positions (e : Element) :
    e.chars.countP (fun c => c ∉ ['V', 'P', 'S']) = e.positions := by
  cases e with
  | symbol run =>
    rw [chars_symbol, List.countP_replicate, positions]
    simp only [List.mem_cons, List.not_mem_nil, or_false, decide_not, Bool.not_eq_true',
      decide_eq_false_iff_not, ite_not]
  | credit => rfl
  | debit => rfl

theorem countP_places (e : Element) : e.chars.countP (fun c => c ∈ ['9', 'P']) = e.places := by
  cases e with
  | symbol run =>
    rw [chars_symbol, List.countP_replicate, places]
    simp
  | credit => rfl
  | debit => rfl

/-- The element is a character that is in no pair just if the character is one of its own. -/
theorem mem_chars {e : Element} (hpos : ∀ run ∈ e.runs, 1 ≤ run.count) {c : Char}
    (hc : c ∉ ['C', 'R', 'D', 'B']) : c ∈ e.chars ↔ e.is c = true := by
  have hpair : ∀ pair : List Char, pair ⊆ ['C', 'R', 'D', 'B'] → c ∉ pair :=
    fun pair hsub hmem => hc (hsub hmem)
  cases e with
  | symbol run =>
    have hcount := hpos run List.mem_cons_self
    rw [chars_symbol, List.mem_replicate, is, decide_eq_true_eq, eq_comm]
    exact and_iff_right (by omega)
  | credit => exact iff_of_false (hpair ['C', 'R'] (by decide)) Bool.false_ne_true
  | debit => exact iff_of_false (hpair ['D', 'B'] (by decide)) Bool.false_ne_true

theorem exists_chars {e : Element} (hpos : ∀ run ∈ e.runs, 1 ≤ run.count) {c : Char}
    (h : e.is c = true) : ∃ tail, e.chars = c :: tail := by
  cases e with
  | symbol run =>
    have hcount := hpos run List.mem_cons_self
    obtain rfl : run.symbol = c := of_decide_eq_true h
    rw [chars_symbol, ← Nat.sub_add_cancel hcount, List.replicate_succ]
    exact ⟨_, rfl⟩
  | credit => cases h
  | debit => cases h

theorem exists_mem_chars {e : Element} (hknown : e.IsKnown) (hpos : ∀ run ∈ e.runs, 1 ≤ run.count) :
    (∃ c ∈ e.chars, c ∈ editing ++ ['C', 'R', 'D']) ↔ e.isEditing = true := by
  cases e with
  | symbol run =>
    have hcount := hpos run List.mem_cons_self
    have hpair : ∀ c ∈ symbols, c ∈ editing ++ ['C', 'R', 'D'] → c ∈ editing := by
      simp [symbols, editing]
    simp only [chars_symbol, List.mem_replicate, isEditing, List.contains_iff_mem]
    constructor
    · rintro ⟨c, ⟨-, rfl⟩, hc⟩
      exact hpair _ hknown hc
    · intro hc
      exact ⟨run.symbol, ⟨by omega, rfl⟩, List.mem_append_left _ hc⟩
  | credit => exact iff_of_true ⟨'C', by decide⟩ rfl
  | debit => exact iff_of_true ⟨'D', by decide⟩ rfl

end Element

theorem countP_positions (elements : List Element) :
    (charsOf elements).countP (fun c => c ∉ ['V', 'P', 'S']) = positionsOf elements := by
  rw [charsOf, List.countP_flatMap, positionsOf]
  exact congrArg List.sum (List.map_congr_left fun e _ => e.countP_positions)

theorem countP_places (elements : List Element) :
    (charsOf elements).countP (fun c => c ∈ ['9', 'P']) = (elements.map Element.places).sum := by
  rw [charsOf, List.countP_flatMap]
  exact congrArg List.sum (List.map_congr_left fun e _ => e.countP_places)

section

variable {elements : List Element} (hpos : ∀ e ∈ elements, ∀ run ∈ e.runs, 1 ≤ run.count)
include hpos

theorem contains_charsOf {c : Char} (hc : c ∉ ['C', 'R', 'D', 'B']) :
    (charsOf elements).contains c = elements.any (·.is c) := by
  rw [Bool.eq_iff_iff, List.contains_iff_mem, charsOf, List.mem_flatMap, List.any_eq_true]
  exact exists_congr fun e => and_congr_right fun he => Element.mem_chars (hpos e he) hc

theorem any_charsOf (hknown : ∀ e ∈ elements, e.IsKnown) :
    (charsOf elements).any (fun c => c ∈ Element.editing ++ ['C', 'R', 'D']) =
      elements.any Element.isEditing := by
  rw [Bool.eq_iff_iff, charsOf, List.any_flatMap, List.any_eq_true, List.any_eq_true]
  refine exists_congr fun e => and_congr_right fun he => ?_
  rw [← Element.exists_mem_chars (hknown e he) (hpos e he), List.any_eq_true]
  simp only [decide_eq_true_eq]

/-- The first decimal point is the first character of its element. -/
theorem countP_dropWhile :
    ((charsOf elements).dropWhile (· != 'V')).countP (fun c => c ∈ ['9', 'P']) =
      placesOf elements := by
  induction elements with
  | nil => rfl
  | cons e rest ih =>
    obtain ⟨he, hrest⟩ := List.forall_mem_cons.1 hpos
    have hmem := Element.mem_chars he (c := 'V') (by decide)
    rw [placesOf_cons, charsOf, List.flatMap_cons]
    cases hV : e.is 'V' with
    | true =>
      obtain ⟨tail, htail⟩ := Element.exists_chars he hV
      have hkeep : (e.chars ++ rest.flatMap Element.chars).dropWhile (· != 'V') =
          e.chars ++ rest.flatMap Element.chars := by
        rw [htail, List.cons_append, List.dropWhile_cons_of_neg (by simp)]
      rw [hkeep, List.countP_append, e.countP_places, places_eq_zero hV, Nat.zero_add, if_pos rfl]
      exact countP_places rest
    | false =>
      have hpoint : ∀ c ∈ e.chars, (c != 'V') = true := by
        intro c hc
        rw [bne_iff_ne]
        rintro rfl
        rw [hmem.1 hc] at hV
        cases hV
      rw [List.dropWhile_append_of_pos hpoint]
      exact ih hrest

/-- The measurements of a picture are those of its characters. -/
theorem measure_eq (hknown : ∀ e ∈ elements, e.IsKnown) :
    measure elements = measureChars (charsOf elements) := by
  have hcontains : ∀ c ∉ ['C', 'R', 'D', 'B'],
      (charsOf elements).contains c = elements.any (·.is c) := fun c hc => contains_charsOf hpos hc
  rw [measure, measureChars, countP_positions, countP_dropWhile hpos, categoryOf,
    any_charsOf hpos hknown, hcontains 'S' (by decide), hcontains 'X' (by decide),
    hcontains 'A' (by decide), hcontains '9' (by decide), hcontains 'V' (by decide)]

end

/-- Elements with each symbol as often as its count says. -/
def spread (elements : List Element) : List Element :=
  elements.flatMap fun
    | .symbol run => List.replicate run.count (.symbol ⟨run.symbol, 1⟩)
    | pair => [pair]

theorem charsOf_spread (elements : List Element) :
    charsOf (spread elements) = charsOf elements := by
  rw [charsOf, spread, List.flatMap_assoc, charsOf]
  refine List.flatMap_congr fun e _ => ?_
  cases e with
  | symbol run => simp [Element.chars_symbol, List.flatMap_replicate]
  | credit => rfl
  | debit => rfl

theorem runs_spread (elements : List Element) :
    (spread elements).flatMap Element.runs = (charsOf elements).map fun c => ⟨c, 1⟩ := by
  rw [charsOf, spread, List.flatMap_assoc, List.map_flatMap]
  refine List.flatMap_congr fun e _ => ?_
  cases e with
  | symbol run => simp [Element.chars_symbol, Element.runs, List.flatMap_replicate]
  | credit => rfl
  | debit => rfl

/-- Characters are their own runs if they are no parentheses. -/
theorem areWritten_map {cs : List Char} (h : ∀ c ∈ cs, c ≠ '(' ∧ c ≠ ')') :
    AreWritten (cs.map fun c => ⟨c, 1⟩) cs := by
  induction cs with
  | nil => exact .nil
  | cons c rest ih =>
    obtain ⟨hc, hrest⟩ := List.forall_mem_cons.1 h
    exact .cons (.plain hc.1 hc.2) (ih hrest)

theorem Element.chars_subset {e : Element} (h : e.IsKnown) :
    e.chars ⊆ symbols ++ ['C', 'R', 'D'] := by
  cases e with
  | symbol run =>
    intro c hc
    rw [chars_symbol] at hc
    rw [List.eq_of_mem_replicate hc]
    exact List.mem_append_left _ h
  | credit => decide
  | debit => decide

/-- No parentheses and no blanks are left of an accepted picture. -/
theorem plain_charsOf {elements : List Element} (h : ∀ e ∈ elements, e.IsKnown) :
    ∀ c ∈ charsOf elements, c ≠ '(' ∧ c ≠ ')' ∧ Text.isBlank c = false := by
  have hplain : (Element.symbols ++ ['C', 'R', 'D']).all
      (fun c => c != '(' && c != ')' && !Text.isBlank c) = true := by decide +kernel
  intro c hc
  obtain ⟨e, he, hc⟩ := List.mem_flatMap.1 hc
  simpa [and_assoc] using List.all_eq_true.1 hplain c (Element.chars_subset (h e he) hc)

theorem isKnown_of_mem_spread {elements : List Element} (h : ∀ e ∈ elements, e.IsKnown) :
    ∀ e ∈ spread elements, e.IsKnown := by
  intro e' he'
  obtain ⟨e, he, he'⟩ := List.mem_flatMap.1 he'
  have hknown := h e he
  cases e with
  | symbol run =>
    rw [List.eq_of_mem_replicate he']
    exact hknown
  | credit => rwa [List.mem_singleton.1 he']
  | debit => rwa [List.mem_singleton.1 he']

theorem IsMadeOf.count_pos {text : List Char} {elements : List Element}
    (h : IsMadeOf text elements) : ∀ e ∈ elements, ∀ run ∈ e.runs, 1 ≤ run.count :=
  fun e he run hrun => h.written.count_pos run (List.mem_flatMap.2 ⟨e, he, hrun⟩)

theorem spread_ne_nil {text : List Char} {elements : List Element} (h : IsMadeOf text elements) :
    spread elements ≠ [] := by
  obtain ⟨e, he⟩ := List.exists_mem_of_ne_nil _ h.nonempty
  intro hnil
  have hempty := List.flatMap_eq_nil_iff.1 hnil e he
  cases e with
  | symbol run =>
    have hcount := h.count_pos _ he run List.mem_cons_self
    have hzero : run.count = 0 := by simpa using hempty
    omega
  | credit => cases hempty
  | debit => cases hempty

/-- What an accepted picture is written out to is made of the same symbols without counts, and these
have the same measurements. -/
theorem IsMadeOf.spread {text : List Char} {elements : List Element} (h : IsMadeOf text elements) :
    IsMadeOf (charsOf elements) (spread elements) ∧
      measure (spread elements) = measure elements := by
  have hknown := isKnown_of_mem_spread h.known
  have hwritten : AreWritten ((Picture.spread elements).flatMap Element.runs)
      (charsOf elements) := by
    rw [runs_spread]
    refine areWritten_map fun c hc => ?_
    obtain ⟨hopen, hclose, -⟩ := plain_charsOf h.known c hc
    exact ⟨hopen, hclose⟩
  have hpos : ∀ e ∈ Picture.spread elements, ∀ run ∈ e.runs, 1 ≤ run.count :=
    fun e he run hrun => hwritten.count_pos run (List.mem_flatMap.2 ⟨e, he, hrun⟩)
  have hmeasure : measure (Picture.spread elements) = measure elements := by
    rw [measure_eq hpos hknown, charsOf_spread, measure_eq h.count_pos h.known]
  refine ⟨⟨hwritten, spread_ne_nil h, hknown, ?_, ?_⟩, hmeasure⟩
  · exact Nat.le_trans (Nat.le_of_eq (congrArg displayLength hmeasure)) h.positions_le
  · exact Nat.le_trans (Nat.le_of_eq (congrArg decimalPlaces hmeasure)) h.places_le

/-- The characters of an accepted picture that is written out, in upper case. -/
theorem map_toUpper_expand {text : String} {elements : List Element}
    (h : IsMadeOf ((Text.trim text.toList).map Char.toUpper) elements) :
    (expand text).toList.map Char.toUpper = charsOf elements := by
  rw [toList_expand, ← expandChars_map_toUpper, expandChars_of_areWritten h.written,
    List.flatMap_assoc]
  rfl

/-- An accepted picture that is written out has neither parentheses nor blanks. -/
theorem plain_expand {text : String} {p : Picture} (h : analyze text = .ok p) :
    '(' ∉ (expand text).toList ∧ ∀ c ∈ (expand text).toList, Text.isBlank c = false := by
  obtain ⟨elements, hmade, -⟩ := exists_isMadeOf_of_analyzeChars h
  have hchars : ∀ c ∈ (expand text).toList, c.toUpper ∈ charsOf elements := fun c hc => by
    rw [← map_toUpper_expand hmade]
    exact List.mem_map_of_mem hc
  refine ⟨fun hopen => ?_, fun c hc => ?_⟩
  · exact (plain_charsOf hmade.known _ (hchars _ hopen)).1 rfl
  · rw [← Text.isBlank_toUpper]
    exact (plain_charsOf hmade.known _ (hchars c hc)).2.2

/-! ## Results -/

/-- An accepted picture that is written out is accepted and measured as before, and its measurements
are counted off its characters: positions are all but `V`, `P` and `S`, and places are `9` and `P`
from the first `V` on. -/
theorem measurements_of_expansion {text : String} {p : Picture} (h : analyze text = .ok p) :
    let chars := (expand text).toList.map Char.toUpper
    analyze (expand text) = .ok p ∧
      p.displayLength = chars.countP (fun c => c ∉ ['V', 'P', 'S']) ∧
      p.decimalPlaces = (chars.dropWhile (· != 'V')).countP (fun c => c ∈ ['9', 'P']) ∧
      (p.signed = true ↔ 'S' ∈ chars) := by
  obtain ⟨elements, hmade, rfl⟩ := exists_isMadeOf_of_analyzeChars h
  have hchars := map_toUpper_expand hmade
  have hmeasure := measure_eq hmade.count_pos hmade.known
  obtain ⟨hspread, hsame⟩ := hmade.spread
  have htrim : Text.trim (expand text).toList = (expand text).toList :=
    Text.trim_eq_self (plain_expand h).2
  rw [← hchars, ← htrim] at hspread
  refine ⟨hsame ▸ hspread.analyzeChars_eq, ?_, ?_, ?_⟩
  · rw [hmeasure, hchars]
    rfl
  · rw [hmeasure, hchars]
    rfl
  · rw [hmeasure, hchars, ← List.contains_iff_mem]
    rfl

theorem measurements_of_expansion_lower_case :
    analyze " s9(3)v9(02)pc(1)r " = .ok ⟨7, 3, true, .edited⟩ ∧
      analyze (expand " s9(3)v9(02)pc(1)r ") = .ok ⟨7, 3, true, .edited⟩ ∧
      expand " s9(3)v9(02)pc(1)r " = "s999v99pcr" := by
  have h : analyze " s9(3)v9(02)pc(1)r " = .ok ⟨7, 3, true, .edited⟩ := by decide +kernel
  exact ⟨h, (measurements_of_expansion h).1, by decide +kernel⟩

/-- Writing out twice is writing out once just if the first time leaves no repeat and no blank at an
end, so for every accepted picture. -/
theorem expand_expand (text : String) :
    (expand (expand text) = expand text ↔
      IsWrittenOut (expand text).toList ∧
        Text.trim (expand text).toList = (expand text).toList) ∧
    ∀ p, analyze text = .ok p → expand (expand text) = expand text := by
  refine ⟨expand_expand_eq_iff text, fun p h => (expand_expand_eq_iff text).2 ⟨?_, ?_⟩⟩
  · exact isWrittenOut_of_not_mem (plain_expand h).1
  · exact Text.trim_eq_self (plain_expand h).2

theorem expand_expand_leading_zeros :
    (∃ p, analyze "9(03)v(2)x" = .ok p) ∧ expand "9(03)v(2)x" = "999vvx" ∧
      expand "999vvx" = "999vvx" := by
  have h : analyze "9(03)v(2)x" = .ok ⟨4, 0, false, .alphanumeric⟩ := by decide +kernel
  have hexpand : expand "9(03)v(2)x" = "999vvx" := by decide +kernel
  exact ⟨⟨_, h⟩, hexpand, hexpand ▸ (expand_expand "9(03)v(2)x").2 _ h⟩

/-- A count behind a count is kept the first time and written out the second time. -/
theorem expand_expand_ne :
    expand "X(1)(3)" = "X(3)" ∧ expand (expand "X(1)(3)") = "XXX" ∧
      expand (expand "X(1)(3)") ≠ expand "X(1)(3)" := by
  decide +kernel

end DataDivision.Picture
