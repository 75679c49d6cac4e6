import DataDivision.Text.Alphanumeric
import DataDivision.Text.Blank
import DataDivision.Text.Case

/-!
Characters and their case.

Putting ASCII letters in upper case neither makes nor removes a blank, so it commutes with trimming.
No letter and no number of any script is blank.
-/

namespace DataDivision.Text

/-- What holds of every ASCII character is found by looking at them all. -/
theorem forall_ascii {P : Char → Prop} (h : ∀ n < 128, P (Char.ofNat n)) {c : Char}
    (hc : c.toNat < 128) : P c := by
  have hof := h c.toNat hc
  rwa [Char.ofNat_toNat] at hof

/-- Only ASCII letters have an upper case. -/
theorem toUpper_eq_self {c : Char} (hc : 128 ≤ c.toNat) : c.toUpper = c := by
  unfold Char.toUpper
  refine dif_neg fun h => ?_
  have hle : c.toNat ≤ 122 := UInt32.le_iff_toNat_le.1 h.2
  omega

/-- Only ASCII letters have a lower case. -/
theorem toLower_eq_self {c : Char} (hc : 128 ≤ c.toNat) : c.toLower = c := by
  unfold Char.toLower
  refine dif_neg fun h => ?_
  have hle : c.toNat ≤ 90 := UInt32.le_iff_toNat_le.1 h.2
  omega

theorem toUpper_toUpper (c : Char) : c.toUpper.toUpper = c.toUpper := by
  rcases Nat.lt_or_ge c.toNat 128 with hc | hc
  · exact forall_ascii (P := fun c => c.toUpper.toUpper = c.toUpper) (by decide +kernel) hc
  · rw [toUpper_eq_self hc, toUpper_eq_self hc]

theorem isBlank_toUpper (c : Char) : isBlank c.toUpper = isBlank c := by
  rcases Nat.lt_or_ge c.toNat 128 with hc | hc
  · exact forall_ascii (P := fun c => isBlank c.toUpper = isBlank c) (by decide +kernel) hc
  · rw [toUpper_eq_self hc]

theorem map_toUpper_toUpper (cs : List Char) :
    (cs.map Char.toUpper).map Char.toUpper = cs.map Char.toUpper := by
  rw [List.map_map]
  exact List.map_congr_left fun c _ => toUpper_toUpper c

/-- A run of characters ends where one is met that does not belong to it. -/
theorem span_append {p : Char → Bool} {run cs : List Char} (hrun : ∀ c ∈ run, p c = true)
    (hcs : ∀ c ∈ cs.head?, p c = false) :
    (run ++ cs).takeWhile p = run ∧ (run ++ cs).dropWhile p = cs := by
  rw [List.takeWhile_append_of_pos hrun, List.dropWhile_append_of_pos hrun]
  cases cs with
  | nil => simp
  | cons c cs =>
    have hc : p c = false := hcs c rfl
    simp [hc]

/-! ## Blanks and letters -/

theorem inside_cons_cons {b₁ b₂ n : Nat} {rest : List Nat} :
    inside (b₁ :: b₂ :: rest) n = true ↔ b₁ ≤ n ∧ (n < b₂ ∨ inside rest n = true) := by
  have hnot : ¬ b₂ ≤ n ↔ n < b₂ := Nat.not_le
  cases h : inside rest n <;> simp [inside, h, hnot]

/-- The white space, code point by code point. -/
def blankCodes : List Nat :=
  [0x0009, 0x000A, 0x000B, 0x000C, 0x000D, 0x0020, 0x0085, 0x00A0, 0x1680, 0x2000, 0x2001, 0x2002,
   0x2003, 0x2004, 0x2005, 0x2006, 0x2007, 0x2008, 0x2009, 0x200A, 0x2028, 0x2029, 0x202F, 0x205F,
   0x3000]

theorem mem_blankCodes {n : Nat} (h : inside blankTable n = true) : n ∈ blankCodes := by
  have hnil : inside [] n = false := rfl
  simp only [blankTable, inside_cons_cons, hnil, Bool.false_eq_true, or_false] at h
  simp only [blankCodes, List.mem_cons, List.not_mem_nil, or_false]
  omega

/-- No letter and no number is blank. -/
theorem isBlank_of_isAlphanumeric {c : Char} (h : isAlphanumeric c = true) : isBlank c = false := by
  have hcodes : ∀ n ∈ blankCodes, (inside alphabeticTable n || inside numericTable n) = false := by
    decide +kernel
  rw [Bool.eq_false_iff]
  intro hblank
  have hnot := hcodes c.toNat (mem_blankCodes hblank)
  rw [isAlphanumeric, isAlphabetic, isNumeric, hnot] at h
  cases h

/-! ## Trimming -/

theorem trimEnd_map_toUpper (cs : List Char) :
    trimEnd (cs.map Char.toUpper) = (trimEnd cs).map Char.toUpper := by
  induction cs with
  | nil => rfl
  | cons c cs ih =>
    rw [List.map_cons, trimEnd, trimEnd, ih, isBlank_toUpper]
    cases trimEnd cs with
    | nil => cases isBlank c <;> rfl
    | cons d ds => rfl

theorem trim_map_toUpper (cs : List Char) :
    trim (cs.map Char.toUpper) = (trim cs).map Char.toUpper := by
  have hblank : isBlank ∘ Char.toUpper = isBlank := funext isBlank_toUpper
  rw [trim, dropBlanks, List.dropWhile_map, hblank, trimEnd_map_toUpper]
  rfl

theorem dropBlanks_eq_self {c : Char} {cs : List Char} (h : isBlank c = false) :
    dropBlanks (c :: cs) = c :: cs := by
  rw [dropBlanks, List.dropWhile_cons, h]
  rfl

theorem dropBlanks_append {blanks cs : List Char} (h : allBlank blanks = true) :
    dropBlanks (blanks ++ cs) = dropBlanks cs :=
  List.dropWhile_append_of_pos (List.all_eq_true.1 h)

theorem trimEnd_eq_self {cs : List Char} (h : ∀ c ∈ cs, isBlank c = false) : trimEnd cs = cs := by
  induction cs with
  | nil => rfl
  | cons c cs ih =>
    rw [trimEnd, ih fun d hd => h d (List.mem_cons_of_mem _ hd), h c List.mem_cons_self]
    cases cs <;> rfl

theorem trim_eq_self {cs : List Char} (h : ∀ c ∈ cs, isBlank c = false) : trim cs = cs := by
  have hd : dropBlanks cs = cs := by
    cases cs with
    | nil => rfl
    | cons c cs => exact dropBlanks_eq_self (h c List.mem_cons_self)
  rw [trim, hd, trimEnd_eq_self h]

/-- Trimming stops at a character that is not blank. -/
theorem trimEnd_append {cs : List Char} (h : ∀ c ∈ cs.getLast?, isBlank c = false)
    (ds : List Char) : trimEnd (cs ++ ds) = cs ++ trimEnd ds := by
  induction cs with
  | nil => rfl
  | cons c cs ih =>
    rw [List.cons_append, trimEnd]
    cases cs with
    | nil =>
      have hc : isBlank c = false := h c rfl
      rw [List.nil_append, hc]
      cases trimEnd ds <;> rfl
    | cons d cs =>
      rw [ih (by simpa using h)]
      rfl

theorem isBlank_getLast_trimEnd (cs : List Char) :
    ∀ c ∈ (trimEnd cs).getLast?, isBlank c = false := by
  induction cs with
  | nil => simp [trimEnd]
  | cons d cs ih =>
    rw [trimEnd]
    split
    · split
      · simp
      · rename_i hd
        intro c hc
        cases hc
        simpa using hd
    · rename_i hne
      rwa [List.getLast?_cons_of_ne_nil hne]

theorem trimEnd_trimEnd (cs : List Char) : trimEnd (trimEnd cs) = trimEnd cs := by
  simpa [trimEnd] using trimEnd_append (isBlank_getLast_trimEnd cs) []

/-- It does not matter at which end a text is trimmed first. -/
theorem trimEnd_dropBlanks (cs : List Char) :
    trimEnd (dropBlanks cs) = dropBlanks (trimEnd cs) := by
  induction cs with
  | nil => rfl
  | cons c cs ih =>
    cases hc : isBlank c with
    | true =>
      rw [dropBlanks, List.dropWhile_cons_of_pos hc, ← dropBlanks, ih, trimEnd]
      split
      · rename_i hnil
        rw [hnil, if_pos hc]
      · rw [dropBlanks, dropBlanks, List.dropWhile_cons_of_pos hc]
    | false =>
      have hlast : ∀ d ∈ [c].getLast?, isBlank d = false := by simpa using hc
      have htrim : trimEnd (c :: cs) = c :: trimEnd cs := trimEnd_append hlast cs
      rw [dropBlanks_eq_self hc, htrim, dropBlanks_eq_self hc]

theorem trim_trimEnd (cs : List Char) : trim (trimEnd cs) = trim cs := by
  rw [trim, trim, trimEnd_dropBlanks, trimEnd_trimEnd, ← trimEnd_dropBlanks]

/-- A text is its trimmed part between blanks. -/
theorem exists_trim (cs : List Char) :
    ∃ front back, cs = front ++ (trim cs ++ back) ∧ allBlank front = true ∧
      allBlank back = true := by
  obtain ⟨back, hcs, hback⟩ := trimEnd_append_blanks (dropBlanks cs)
  refine ⟨cs.takeWhile isBlank, back, ?_, List.all_takeWhile, hback⟩
  rw [trim, ← hcs, dropBlanks, List.takeWhile_append_dropWhile]

theorem trim_eq_nil_iff {cs : List Char} : trim cs = [] ↔ allBlank cs = true := by
  constructor
  · intro h
    obtain ⟨front, back, hcs, hfront, hback⟩ := exists_trim cs
    rw [hcs, h, allBlank, List.all_append]
    exact Bool.and_eq_true_iff.2 ⟨hfront, hback⟩
  · intro h
    have hdrop : dropBlanks (cs ++ []) = dropBlanks [] := dropBlanks_append h
    rw [List.append_nil] at hdrop
    rw [trim, hdrop]
    rfl

/-- Blanks before a text do not change its end. -/
theorem getLast?_trim {cs : List Char} (h : trim cs ≠ []) :
    (trim cs).getLast? = (trimEnd cs).getLast? := by
  rw [trim, trimEnd_dropBlanks] at h ⊢
  have hcs : (trimEnd cs).takeWhile isBlank ++ dropBlanks (trimEnd cs) = trimEnd cs :=
    List.takeWhile_append_dropWhile
  have hlast := congrArg List.getLast? hcs
  rwa [List.getLast?_append, List.getLast?_eq_some_getLast h, Option.some_or,
    ← List.getLast?_eq_some_getLast h] at hlast

end DataDivision.Text
