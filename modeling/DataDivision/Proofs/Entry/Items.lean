import DataDivision.Entry.Token
import DataDivision.Proofs.Text.Characters

/-!
Words and literals as they are written.

A text of words and literals, each behind some white space, is split into just these tokens.  A
period at its end stays with the last word; behind a literal it becomes a word of its own
(`shows_split`).
-/

namespace DataDivision.Entry

/-! ## Words without a period -/

theorem dropPeriod_eq_self {w : List Char} (h : w.getLast? ≠ some '.') : dropPeriod w = w := by
  fun_induction dropPeriod w with
  | case1 => rfl
  | case2 => simp at h
  | case3 c rest hrest ih =>
    cases rest with
    | nil => rfl
    | cons d ds => rw [ih (by simpa using h)]

theorem dropPeriod_append_period (w : List Char) : dropPeriod (w ++ ['.']) = w := by
  induction w with
  | nil => rfl
  | cons c w ih =>
    rw [List.cons_append, dropPeriod, ih]
    simp

/-! ## Items -/

/-- A word, or a literal between two quotes, as it is written. -/
inductive Item
  | word (text : List Char)
  | quoted (quote : Char) (text : List Char)
  deriving DecidableEq, Repr

namespace Item

def text : Item → List Char
  | word w => w
  | quoted q t => q :: (t ++ [q])

/-- The token that the item is read as. -/
def token : Item → Token
  | word w => .word w
  | quoted _ t => .literal t

/-- The item is one token whatever follows it: a word has no blanks, no quotes and no period at its
end, and a literal does not have its own quotes in it. -/
def IsPlain : Item → Prop
  | word w => w ≠ [] ∧ (∀ c ∈ w, Token.isWordChar c = true) ∧ w.getLast? ≠ some '.'
  | quoted q t => Token.isQuote q = true ∧ q ∉ t

end Item

def IsGap (gap : List Char) : Prop := gap ≠ [] ∧ Text.allBlank gap = true

instance (gap : List Char) : Decidable (IsGap gap) :=
  inferInstanceAs (Decidable (gap ≠ [] ∧ Text.allBlank gap = true))

/-- Items written one after another, each behind its gap. -/
def render (pieces : List (List Char × Item)) : List Char := pieces.flatMap fun x => x.1 ++ x.2.text

/-- The tokens of items with a period behind them or not: it is the last character of the last word
or a word of its own. -/
inductive Shows : List Token → List Item → Prop
  | done : Shows [] []
  | period : Shows [.word ['.']] []
  | closed (w : List Char) : Shows [.word (w ++ ['.'])] [.word w]
  | next (i : Item) {tokens : List Token} {items : List Item} :
    Shows tokens items → Shows (i.token :: tokens) (i :: items)

/-! ## Splitting -/

namespace Token

theorem isBlank_of_isQuote {c : Char} (h : isQuote c = true) : Text.isBlank c = false := by
  simp only [isQuote, Bool.or_eq_true, beq_iff_eq] at h
  rcases h with rfl | rfl <;> decide +kernel

theorem isWordChar_of_isBlank {c : Char} (h : Text.isBlank c = true) : isWordChar c = false := by
  simp [isWordChar, h]

theorem split_blanks {gap : List Char} (h : Text.allBlank gap = true) (cs : List Char) :
    split (gap ++ cs) = split cs := by
  induction gap with
  | nil => rfl
  | cons c gap ih =>
    simp only [Text.allBlank, List.all_cons, Bool.and_eq_true] at h
    rw [List.cons_append, split, if_pos h.1, ih h.2]

/-- What stands behind a word does not go on with it. -/
def EndsWord (cs : List Char) : Prop := ∀ c ∈ cs.head?, isWordChar c = false

theorem split_word {w cs : List Char} (hne : w ≠ []) (hw : ∀ c ∈ w, isWordChar c = true)
    (hcs : EndsWord cs) : split (w ++ cs) = word w :: split cs := by
  cases w with
  | nil => exact absurd rfl hne
  | cons c w =>
    obtain ⟨hc, hw⟩ := List.forall_mem_cons.1 hw
    obtain ⟨htake, hdrop⟩ := Text.span_append hw hcs
    simp only [isWordChar, Bool.and_eq_true, Bool.not_eq_true'] at hc
    rw [List.cons_append, split, hc.1, hc.2, htake, hdrop]
    rfl

theorem split_quoted {q : Char} {t : List Char} (hq : isQuote q = true) (ht : q ∉ t)
    (cs : List Char) : split (q :: (t ++ q :: cs)) = literal t :: split cs := by
  have hall : ∀ c ∈ t, (c != q) = true := fun c hc => by
    rw [bne_iff_ne]
    rintro rfl
    exact ht hc
  have hend : ∀ c ∈ (q :: cs).head?, (c != q) = false := by simp
  obtain ⟨htake, hdrop⟩ := Text.span_append hall hend
  rw [split, isBlank_of_isQuote hq, hq, htake, hdrop]
  rfl

/-- The period behind a word stays with it. -/
theorem split_closed {w : List Char} (hw : ∀ c ∈ w, isWordChar c = true) :
    split (w ++ ['.']) = [word (w ++ ['.'])] := by
  have hdot : isWordChar '.' = true := by decide +kernel
  have hclosed : ∀ c ∈ w ++ ['.'], isWordChar c = true := by
    intro c hc
    rcases List.mem_append.1 hc with hc | hc
    · exact hw c hc
    · rwa [List.mem_singleton.1 hc]
  have hend : EndsWord [] := by simp [EndsWord]
  have hsplit := split_word (by simp) hclosed hend
  rwa [List.append_nil, split] at hsplit

end Token

theorem IsGap.endsWord {gap : List Char} (h : IsGap gap) (cs : List Char) :
    Token.EndsWord (gap ++ cs) := by
  obtain ⟨hne, hblank⟩ := h
  cases gap with
  | nil => exact absurd rfl hne
  | cons c gap =>
    simp only [Text.allBlank, List.all_cons, Bool.and_eq_true] at hblank
    rintro d ⟨⟩
    exact Token.isWordChar_of_isBlank hblank.1

/-- A text of plain items, with a period behind it or not, is split into their tokens. -/
theorem shows_split {pieces : List (List Char × Item)} {period : List Char}
    (hpieces : ∀ x ∈ pieces, IsGap x.1 ∧ x.2.IsPlain) (hperiod : period = [] ∨ period = ['.']) :
    Shows (Token.split (render pieces ++ period)) (pieces.map (·.2)) := by
  induction pieces with
  | nil =>
    rcases hperiod with rfl | rfl
    · rw [show render [] ++ [] = [] from rfl, Token.split]
      exact .done
    · rw [show Token.split (render [] ++ ['.']) = [.word ['.']] by decide +kernel]
      exact .period
  | cons x rest ih =>
    obtain ⟨⟨hgap, hplain⟩, hrest⟩ := List.forall_mem_cons.1 hpieces
    have hshows := ih hrest
    obtain ⟨gap, item⟩ := x
    have htext : render ((gap, item) :: rest) ++ period =
        gap ++ (item.text ++ (render rest ++ period)) := by
      simp [render]
    rw [htext, Token.split_blanks hgap.2, List.map_cons]
    cases item with
    | quoted q t =>
      have hsplit := Token.split_quoted hplain.1 hplain.2 (render rest ++ period)
      simp only [Item.text, List.cons_append, List.append_assoc, List.nil_append, hsplit]
      exact .next (.quoted q t) hshows
    | word w =>
      obtain ⟨hne, hw, -⟩ := hplain
      cases rest with
      | cons y rest =>
        have hends : Token.EndsWord (render (y :: rest) ++ period) := by
          have := (hrest y List.mem_cons_self).1.endsWord (y.2.text ++ (render rest ++ period))
          simpa [render] using this
        rw [Item.text, Token.split_word hne hw hends]
        exact .next (.word w) hshows
      | nil =>
        rcases hperiod with rfl | rfl
        · rw [Item.text, Token.split_word hne hw (by simp [Token.EndsWord, render])]
          exact .next (.word w) hshows
        · have hsplit : Token.split (Item.text (.word w) ++ (render [] ++ ['.'])) =
              [.word (w ++ ['.'])] := Token.split_closed hw
          rw [hsplit]
          exact .closed w

/-! ## Reading items off -/

/-- The first token of a plain word is that word, but that a period may be at its end if it is the
last. -/
theorem Shows.exists_word {tokens : List Token} {w : List Char} {items : List Item}
    (hw : (Item.word w).IsPlain) (h : Shows tokens (.word w :: items)) :
    ∃ v rest, tokens = .word v :: rest ∧ dropPeriod v = w ∧ (items ≠ [] → v = w) ∧
      Shows rest items := by
  cases h with
  | closed => exact ⟨_, _, rfl, dropPeriod_append_period w, fun h => absurd rfl h, .done⟩
  | next _ h => exact ⟨w, _, rfl, dropPeriod_eq_self hw.2.2, fun _ => rfl, h⟩

theorem Shows.exists_quoted {tokens : List Token} {q : Char} {t : List Char} {items : List Item}
    (h : Shows tokens (.quoted q t :: items)) :
    ∃ rest, tokens = .literal t :: rest ∧ Shows rest items := by
  cases h with
  | next _ h => exact ⟨_, rfl, h⟩

end DataDivision.Entry
