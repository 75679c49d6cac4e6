import DataDivision.Proofs.Entry.Items

/-!
Closed literals.

Whether a quote opens a literal or closes one is decided by the quotes before it.  Where all
literals before a blank are closed, the text is split into tokens on either side of it
(`split_append`).
-/

namespace DataDivision.Entry

/-- The quote of the literal that is open behind a character, by the one that is open before it. -/
def openAfter (quote : Option Char) (c : Char) : Option Char :=
  match quote with
  | none => if Token.isQuote c then some c else none
  | some q => if c = q then none else some q

/-- Each literal of the text is closed by its quote. -/
def IsClosed (cs : List Char) : Prop := cs.foldl openAfter none = none

instance (cs : List Char) : Decidable (IsClosed cs) := inferInstanceAs (Decidable (_ = _))

theorem isClosed_cons {c : Char} (hc : Token.isQuote c = false) (cs : List Char) :
    IsClosed (c :: cs) ↔ IsClosed cs := by
  rw [IsClosed, IsClosed, List.foldl_cons, openAfter, hc]
  rfl

theorem isClosed_append {front : List Char} (h : IsClosed front) (rest : List Char) :
    IsClosed (front ++ rest) ↔ IsClosed rest := by
  rw [IsClosed, IsClosed, List.foldl_append, h]

theorem isClosed_of_not_isQuote {cs : List Char} (h : ∀ c ∈ cs, Token.isQuote c = false) :
    IsClosed cs := by
  induction cs with
  | nil => rfl
  | cons c cs ih =>
    obtain ⟨hc, hcs⟩ := List.forall_mem_cons.1 h
    exact (isClosed_cons hc cs).2 (ih hcs)

/-- Behind an open literal there is its quote. -/
theorem exists_closing {q : Char} {cs : List Char} (h : cs.foldl openAfter (some q) = none) :
    ∃ text after, cs = text ++ q :: after ∧ q ∉ text ∧ IsClosed after := by
  induction cs with
  | nil => cases h
  | cons c cs ih =>
    rw [List.foldl_cons, openAfter] at h
    split at h
    · rename_i hc
      subst hc
      exact ⟨[], cs, rfl, by simp, h⟩
    · rename_i hc
      obtain ⟨text, after, rfl, ht, hclosed⟩ := ih h
      exact ⟨c :: text, after, rfl, by simp [Ne.symm hc, ht], hclosed⟩

/-! ## Blanks -/

theorem isQuote_of_isBlank {c : Char} (h : Text.isBlank c = true) : Token.isQuote c = false := by
  cases hq : Token.isQuote c with
  | false => rfl
  | true =>
    rw [Token.isBlank_of_isQuote hq] at h
    cases h

/-- An open literal is one in quotes. -/
theorem isQuote_of_foldl {cs : List Char} {quote : Option Char}
    (h : ∀ q ∈ quote, Token.isQuote q = true) :
    ∀ q ∈ cs.foldl openAfter quote, Token.isQuote q = true := by
  induction cs generalizing quote with
  | nil => exact h
  | cons c cs ih =>
    refine ih fun q hq => ?_
    unfold openAfter at hq
    split at hq <;> split at hq
    · cases hq
      assumption
    · cases hq
    · cases hq
    · exact h q hq

/-- Blanks neither open a literal nor close one. -/
theorem isClosed_blanks {blanks : List Char} (h : Text.allBlank blanks = true) : IsClosed blanks :=
  isClosed_of_not_isQuote fun c hc => isQuote_of_isBlank (List.all_eq_true.1 h c hc)

theorem isClosed_of_append_blanks {cs blanks : List Char} (hblanks : Text.allBlank blanks = true)
    (h : IsClosed (cs ++ blanks)) : IsClosed cs := by
  rw [IsClosed, List.foldl_append] at h
  cases hq : cs.foldl openAfter none with
  | none => exact hq
  | some q =>
    rw [hq] at h
    obtain ⟨text, after, rfl, -, -⟩ := exists_closing h
    have hblank : Text.isBlank q = true := List.all_eq_true.1 hblanks q (by simp)
    have hnone : ∀ q ∈ (none : Option Char), Token.isQuote q = true := by simp
    have hquote := isQuote_of_foldl hnone q hq
    rw [isQuote_of_isBlank hblank] at hquote
    cases hquote

theorem isClosed_trim (cs : List Char) : IsClosed (Text.trim cs) ↔ IsClosed cs := by
  obtain ⟨front, back, hcs, hfront, hback⟩ := Text.exists_trim cs
  have hiff := isClosed_append (isClosed_blanks hfront) (Text.trim cs ++ back)
  rw [← hcs] at hiff
  refine ⟨fun h => hiff.2 ?_, fun h => isClosed_of_append_blanks hback (hiff.1 h)⟩
  exact (isClosed_append h back).2 (isClosed_blanks hback)

/-! ## Splitting -/

theorem Token.isQuote_of_isWordChar {c : Char} (h : isWordChar c = true) : isQuote c = false := by
  simp only [isWordChar, Bool.and_eq_true, Bool.not_eq_true'] at h
  exact h.2

/-- A word ends within the text or, if it reaches the end of it, where the rest begins. -/
theorem Token.endsWord_dropWhile (cs : List Char) {rest : List Char} (hrest : EndsWord rest) :
    EndsWord (cs.dropWhile isWordChar ++ rest) := by
  have hhead := List.head?_dropWhile_not isWordChar cs
  cases hd : cs.dropWhile isWordChar with
  | nil => exact hrest
  | cons c after =>
    rw [hd] at hhead
    rintro d ⟨⟩
    simpa using hhead

/-- A text whose literals are closed is split apart from what stands behind it. -/
theorem Token.split_append {front rest : List Char} (h : IsClosed front) (hrest : EndsWord rest) :
    split (front ++ rest) = split front ++ split rest := by
  fun_induction split front with
  | case1 => rfl
  | case2 c front hblank ih =>
    rw [List.cons_append, split, if_pos hblank]
    exact ih ((isClosed_cons (isQuote_of_isBlank hblank) front).1 h)
  | case3 c front hblank hquote ih =>
    rw [IsClosed, List.foldl_cons, openAfter, if_pos hquote] at h
    obtain ⟨text, after, rfl, htext, hafter⟩ := exists_closing h
    have hall : ∀ d ∈ text, (d != c) = true := fun d hd =>
      bne_iff_ne.2 fun hdc => htext (hdc ▸ hd)
    have hend : ∀ d ∈ (c :: after).head?, (d != c) = false := by simp
    obtain ⟨htake, hdrop⟩ := Text.span_append hall hend
    rw [hdrop] at ih ⊢
    rw [htake, List.cons_append, List.append_assoc, List.cons_append, split_quoted hquote htext]
    exact congrArg _ (ih hafter)
  | case4 c front hblank hquote ih =>
    have hc : isWordChar c = true := by simp [isWordChar, hblank, hquote]
    have hword : ∀ d ∈ c :: front.takeWhile isWordChar, isWordChar d = true :=
      List.forall_mem_cons.2 ⟨hc, List.all_eq_true.1 List.all_takeWhile⟩
    have hfront : c :: front = (c :: front.takeWhile isWordChar) ++ front.dropWhile isWordChar := by
      rw [List.cons_append, List.takeWhile_append_dropWhile]
    have hends := endsWord_dropWhile front hrest
    have hclosed : IsClosed (front.dropWhile isWordChar) := by
      rw [hfront] at h
      have hquotes := fun d hd => isQuote_of_isWordChar (hword d hd)
      exact (isClosed_append (isClosed_of_not_isQuote hquotes) _).1 h
    rw [hfront, List.append_assoc, split_word (List.cons_ne_nil _ _) hword hends, ih hclosed]
    rfl

end DataDivision.Entry
