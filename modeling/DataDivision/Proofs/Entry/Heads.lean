import DataDivision.Entry.Head
import DataDivision.Proofs.Entry.Items

/-!
Heads as they are written.

A text has a head if it is a level of two digits and a data name behind white space, and what stands
behind the name does not go on with it (`split?_head`, `exists_of_split?`).  So the head of a text
does not depend on blanks before it or on what is written behind a blank.
-/

namespace DataDivision.Entry

/-! ## Characters of names -/

theorem toNat_lt_of_isNameChar {c : Char} (h : isNameChar c = true) : c.toNat < 128 := by
  have hle {d : Char} (hd : d.toNat < 128) (hcd : c.val ≤ d.val) : c.toNat < 128 :=
    Nat.lt_of_le_of_lt (UInt32.le_iff_toNat_le.1 hcd) hd
  simp only [isNameChar, Char.isAlphanum, Bool.or_eq_true, beq_iff_eq] at h
  rcases h with (hletter | hdigit) | rfl
  · rcases Bool.or_eq_true_iff.1 hletter with hupper | hlower
    · exact hle (d := 'Z') (by decide) (of_decide_eq_true hupper).2
    · exact hle (d := 'z') (by decide) (of_decide_eq_true (Bool.and_eq_true_iff.1 hlower).2)
  · exact hle (d := '9') (by decide) (of_decide_eq_true (Bool.and_eq_true_iff.1 hdigit).2)
  · decide

theorem isWordChar_of_isNameChar {c : Char} (h : isNameChar c = true) :
    Token.isWordChar c = true ∧ c ≠ '.' := by
  have hall : ∀ n < 128, isNameChar (Char.ofNat n) = true →
      Token.isWordChar (Char.ofNat n) = true ∧ Char.ofNat n ≠ '.' := by decide +kernel
  exact Text.forall_ascii (P := fun c => isNameChar c = true → Token.isWordChar c = true ∧ c ≠ '.')
    hall (toNat_lt_of_isNameChar h) h

theorem isBlank_of_isNameChar {c : Char} (h : isNameChar c = true) : Text.isBlank c = false := by
  have hw := (isWordChar_of_isNameChar h).1
  simp only [Token.isWordChar, Bool.and_eq_true, Bool.not_eq_true'] at hw
  exact hw.1

/-- What may stand behind a data name does not go on with it. -/
theorem not_isNameChar_of_endsName {body : List Char} (h : Head.endsName body = true) :
    ∀ c ∈ body.head?, isNameChar c = false := by
  intro c hc
  cases hn : isNameChar c with
  | false => rfl
  | true =>
    cases body with
    | nil => cases hc
    | cons d body =>
      obtain rfl := Option.some.inj hc
      simp [Head.endsName, isBlank_of_isNameChar hn, (isWordChar_of_isNameChar hn).2] at h

theorem dropBlanks_of_isNameChar {blanks w cs : List Char} (hblanks : Text.allBlank blanks = true)
    (hne : w ≠ []) (hw : ∀ c ∈ w, isNameChar c = true) :
    Text.dropBlanks (blanks ++ (w ++ cs)) = w ++ cs := by
  rw [Text.dropBlanks_append hblanks]
  cases w with
  | nil => exact absurd rfl hne
  | cons c w => exact Text.dropBlanks_eq_self (isBlank_of_isNameChar (hw c List.mem_cons_self))

theorem split?_head {margin gap name body : List Char} {tens ones : Char}
    (hmargin : Text.allBlank margin = true) (htens : tens.isDigit = true)
    (hones : ones.isDigit = true) (hgap : IsGap gap) (hname : isDataName name = true)
    (hbody : Head.endsName body = true) :
    Head.split? (margin ++ [tens, ones] ++ gap ++ name ++ body) =
      some ⟨(tens, ones), name, body⟩ := by
  simp only [isDataName, Bool.and_eq_true, List.all_eq_true] at hname
  obtain ⟨hall, hletter⟩ := hname
  have hdigits : ∀ c ∈ [tens, ones], isNameChar c = true := by
    simp [isNameChar, Char.isAlphanum, htens, hones]
  have hnil : name ≠ [] := by
    rintro rfl
    simp at hletter
  obtain ⟨hne, hblank⟩ := hgap
  obtain ⟨c, gap, rfl⟩ := List.exists_cons_of_ne_nil hne
  simp only [Text.allBlank, List.all_cons, Bool.and_eq_true] at hblank
  obtain ⟨htake, hdrop⟩ := Text.span_append hall (not_isNameChar_of_endsName hbody)
  have htext : Text.dropBlanks (margin ++ ([tens, ones] ++ (c :: gap ++ (name ++ body)))) =
      [tens, ones] ++ (c :: gap ++ (name ++ body)) :=
    dropBlanks_of_isNameChar hmargin (by simp) hdigits
  simp only [List.append_assoc, Head.split?, htext]
  simp only [List.cons_append, List.nil_append, htens, hones, hblank.1, Bool.and_self, if_true,
    dropBlanks_of_isNameChar hblank.2 hnil hall, htake, hdrop, hletter, hbody]

/-- The level in two digits and the name, with white space between them and maybe before them. -/
inductive Head.IsWritten (h : Head) : List Char → Prop
  | mk {margin gap : List Char} : Text.allBlank margin = true → h.level.1.isDigit = true →
    h.level.2.isDigit = true → IsGap gap → isDataName h.name = true →
    IsWritten h (margin ++ [h.level.1, h.level.2] ++ gap ++ h.name)

theorem exists_of_split? {text : List Char} {h : Head} (hs : Head.split? text = some h) :
    ∃ front, h.IsWritten front ∧ text = front ++ h.clauses ∧ Head.endsName h.clauses = true := by
  have hname := Head.isDataName_of_split? hs
  have hspan : ∀ cs, cs.takeWhile Text.isBlank ++ Text.dropBlanks cs = cs := fun cs =>
    List.takeWhile_append_dropWhile
  unfold Head.split? at hs
  split at hs
  · rename_i tens ones gap rest hdrop
    split at hs
    · rename_i hdigits
      dsimp only at hs
      split at hs
      · rename_i hn
        cases hs
        simp only [Bool.and_eq_true] at hdigits hn
        have hgap : IsGap (gap :: rest.takeWhile Text.isBlank) := by
          refine ⟨List.cons_ne_nil _ _, ?_⟩
          rw [Text.allBlank, List.all_cons, hdigits.2, List.all_takeWhile]
          rfl
        have hmargin : Text.allBlank (text.takeWhile Text.isBlank) = true := List.all_takeWhile
        refine ⟨_, .mk hmargin hdigits.1.1 hdigits.1.2 hgap hname, ?_, hn.2⟩
        have htext := hspan text
        rw [hdrop, ← hspan rest,
          ← List.takeWhile_append_dropWhile (p := isNameChar) (l := Text.dropBlanks rest)] at htext
        refine htext.symm.trans ?_
        simp only [List.cons_append, List.append_assoc, List.nil_append]
      · cases hs
    · cases hs
  · cases hs

theorem Head.IsWritten.split?_eq {h : Head} {front body : List Char} (hw : h.IsWritten front)
    (hbody : Head.endsName body = true) :
    Head.split? (front ++ body) = some { h with clauses := body } := by
  cases hw with
  | mk hmargin htens hones hgap hname => exact split?_head hmargin htens hones hgap hname hbody

/-! ## What stands around a head -/

/-- The text is empty or begins with a blank. -/
def BeginsBlank (cs : List Char) : Prop := ∀ c ∈ cs.head?, Text.isBlank c = true

instance : (cs : List Char) → Decidable (BeginsBlank cs)
  | [] => .isTrue (by simp [BeginsBlank])
  | c :: _ => decidable_of_iff (Text.isBlank c = true) (by simp [BeginsBlank])

theorem beginsBlank_of_allBlank {blanks : List Char} (h : Text.allBlank blanks = true) :
    BeginsBlank blanks :=
  fun c hc => List.all_eq_true.1 h c (List.mem_of_mem_head? hc)

theorem endsName_append {clauses rest : List Char} (h : Head.endsName clauses = true)
    (hrest : BeginsBlank rest) : Head.endsName (clauses ++ rest) = true := by
  cases clauses with
  | cons c clauses => exact h
  | nil =>
    cases rest with
    | nil => rfl
    | cons c rest =>
      have hc := hrest c rfl
      simp [Head.endsName, hc]

/-- What is written behind a blank belongs to the clauses. -/
theorem split?_append {front rest : List Char} {h : Head} (hs : Head.split? front = some h)
    (hrest : BeginsBlank rest) :
    Head.split? (front ++ rest) = some { h with clauses := h.clauses ++ rest } := by
  obtain ⟨start, hstart, rfl, hends⟩ := exists_of_split? hs
  rw [List.append_assoc]
  exact hstart.split?_eq (endsName_append hends hrest)

theorem split?_blanks {blanks : List Char} (h : Text.allBlank blanks = true) (text : List Char) :
    Head.split? (blanks ++ text) = Head.split? text := by
  rw [Head.split?, Text.dropBlanks_append h, Head.split?]

theorem Head.IsWritten.isBlank_getLast {h : Head} {front : List Char} (hw : h.IsWritten front) :
    ∀ c ∈ front.getLast?, Text.isBlank c = false := by
  cases hw with
  | mk _ _ _ _ hname =>
    simp only [isDataName, Bool.and_eq_true, List.all_eq_true] at hname
    have hne : h.name ≠ [] := by
      intro hnil
      simp [hnil] at hname
    intro c hc
    rw [List.getLast?_append, List.getLast?_eq_some_getLast hne] at hc
    obtain rfl := Option.some.inj hc
    exact isBlank_of_isNameChar (hname.1 _ (List.getLast_mem hne))

theorem endsName_trimEnd {clauses : List Char} (h : Head.endsName clauses = true) :
    Head.endsName (Text.trimEnd clauses) = true := by
  cases clauses with
  | nil => rfl
  | cons c clauses =>
    rw [Text.trimEnd]
    split
    · split
      · rfl
      · exact h
    · exact h

/-- Blanks at the end of a text stand behind its head. -/
theorem split?_trimEnd {text : List Char} {h : Head} (hs : Head.split? text = some h) :
    Head.split? (Text.trimEnd text) = some { h with clauses := Text.trimEnd h.clauses } := by
  obtain ⟨start, hstart, rfl, hends⟩ := exists_of_split? hs
  rw [Text.trimEnd_append hstart.isBlank_getLast]
  exact hstart.split?_eq (endsName_trimEnd hends)

/-- Blanks at the end of a text do not make it an entry. -/
theorem startsEntry_trimEnd (text : List Char) :
    startsEntry (Text.trimEnd text) = startsEntry text := by
  rw [Bool.eq_iff_iff, startsEntry, startsEntry, Option.isSome_iff_exists, Option.isSome_iff_exists]
  constructor
  · rintro ⟨h, hs⟩
    obtain ⟨blanks, htext, hblanks⟩ := Text.trimEnd_append_blanks text
    rw [htext, split?_append hs (beginsBlank_of_allBlank hblanks)]
    exact ⟨_, rfl⟩
  · rintro ⟨h, hs⟩
    exact ⟨_, split?_trimEnd hs⟩

theorem startsEntry_trim (text : List Char) :
    startsEntry (Text.trim text) = startsEntry text := by
  have hfront : Text.allBlank (text.takeWhile Text.isBlank) = true := List.all_takeWhile
  have hdrop := split?_blanks hfront (Text.dropBlanks text)
  rw [Text.dropBlanks, List.takeWhile_append_dropWhile] at hdrop
  rw [Text.trim, startsEntry_trimEnd, startsEntry, startsEntry, hdrop]
  rfl

/-- Blanks alone are no entry. -/
theorem allBlank_of_startsEntry {text : List Char} (h : startsEntry text = true) :
    Text.allBlank text = false := by
  cases hb : Text.allBlank text with
  | false => rfl
  | true =>
    rw [← startsEntry_trim, Text.trim_eq_nil_iff.2 hb] at h
    cases h

end DataDivision.Entry
