import DataDivision.Proofs.Text.Characters
import Mathlib.Data.List.TakeWhile

/-!
Words of a text.

Words are what lies between blanks, so they are the same whatever blanks stand around them, and a
text that is cut at a blank has the words of its two parts (`words_append_blank`).
-/

namespace DataDivision.Text

theorem dropBlanks_eq_nil_iff {cs : List Char} : dropBlanks cs = [] ↔ allBlank cs = true := by
  rw [dropBlanks, List.dropWhile_eq_nil_iff, allBlank, List.all_eq_true]

theorem words_of_allBlank {cs : List Char} (h : allBlank cs = true) : words cs = [] := by
  rw [words]
  split
  · rfl
  · rename_i hcons
    rw [← dropBlanks, dropBlanks_eq_nil_iff.2 h] at hcons
    cases hcons

theorem words_of_dropBlanks {cs : List Char} {c : Char} {rest : List Char}
    (h : dropBlanks cs = c :: rest) :
    words cs = (c :: rest.takeWhile fun d => !isBlank d) ::
      words (rest.dropWhile fun d => !isBlank d) := by
  unfold dropBlanks at h
  rw [words]
  split
  · rename_i hnil
    rw [h] at hnil
    cases hnil
  · rename_i hcons
    rw [h] at hcons
    cases hcons
    rfl

theorem words_blanks {blanks : List Char} (h : allBlank blanks = true) (cs : List Char) :
    words (blanks ++ cs) = words cs := by
  have hdrop : dropBlanks (blanks ++ cs) = dropBlanks cs := dropBlanks_append h
  cases hd : dropBlanks cs with
  | nil =>
    rw [words_of_allBlank (dropBlanks_eq_nil_iff.1 (hdrop.trans hd)),
      words_of_allBlank (dropBlanks_eq_nil_iff.1 hd)]
  | cons c rest => rw [words_of_dropBlanks hd, words_of_dropBlanks (hdrop.trans hd)]

/-- A text that is cut at a blank has the words of its parts. -/
theorem words_append_blank (front : List Char) {c : Char} (hc : isBlank c = true)
    (back : List Char) : words (front ++ c :: back) = words front ++ words back := by
  fun_induction words front with
  | case1 front hdrop =>
    have hblank : allBlank (front ++ [c]) = true := by
      rw [allBlank, List.all_append, ← allBlank, dropBlanks_eq_nil_iff.1 hdrop]
      simp [hc]
    rw [List.append_cons, words_blanks hblank, List.nil_append]
  | case2 front d rest hdrop ih =>
    have happend : dropBlanks (front ++ c :: back) = d :: (rest ++ c :: back) := by
      rw [dropBlanks, List.dropWhile_append, hdrop]
      rfl
    have hword : ∀ e ∈ rest.takeWhile (fun e => !isBlank e), (!isBlank e) = true :=
      List.all_eq_true.1 List.all_takeWhile
    -- the word ends within the first part, or else at the blank behind it
    have hends : ∀ e ∈ (rest.dropWhile (fun e => !isBlank e) ++ c :: back).head?,
        (!isBlank e) = false := by
      have hhead := List.head?_dropWhile_not (fun e => !isBlank e) rest
      cases hd : rest.dropWhile fun e => !isBlank e with
      | nil => simp [hc]
      | cons e after =>
        rw [hd] at hhead
        rintro _ ⟨⟩
        exact hhead
    obtain ⟨htake, hrest⟩ := span_append hword hends
    rw [← List.append_assoc, List.takeWhile_append_dropWhile] at htake hrest
    rw [words_of_dropBlanks happend, htake, hrest, ih, List.cons_append]

/-- Blanks at the ends of a text hold no word. -/
theorem words_trim (cs : List Char) : words (trim cs) = words cs := by
  obtain ⟨front, back, hcs, hfront, hback⟩ := exists_trim cs
  have hwords := words_blanks hfront (trim cs ++ back)
  rw [← hcs] at hwords
  rw [hwords]
  cases back with
  | nil => rw [List.append_nil]
  | cons c back =>
    obtain ⟨hc, hback⟩ := Bool.and_eq_true_iff.1 ((List.all_cons ..).symm.trans hback)
    rw [words_append_blank _ hc, words_of_allBlank hback, List.append_nil]

end DataDivision.Text
