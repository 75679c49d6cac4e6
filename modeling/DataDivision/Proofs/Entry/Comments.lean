import DataDivision.Proofs.Entry.Breaking
import DataDivision.Proofs.Record.Relocation
import Mathlib.Data.List.Induction

/-!
Comments behind entries.

A line is read up to the first comment mark behind its sequence area, whether that stands in a
literal or not (`tokenize_up_to_mark`).  Outside of literals the mark begins a comment.  A literal
with a mark in it ends there, and with it the entry: the clauses behind are lost
(`mark_within_literal`).
-/

namespace DataDivision.Entry

/-- The mark that a comment begins with. -/
def commentMark : List Char := ['*', '>']

/-- The line behind its sequence area. -/
def afterMargin (line : List Char) : List Char := line.drop (marginOf line)

/-- What a text declares: nothing if it is no entry or is rejected. -/
def declared? (text : List Char) (span : Span) : Option Descriptor := (scan text span).toOption.join

/-- The line by itself declares what the text does, but for the span. -/
def ReadsAs (line text : List Char) : Prop :=
  ∀ span, (tokenize line).map (fun d => { d with span := span }) = declared? text span

/-- The text with a literal that is open at its end closed, behind its last character that is not
blank. -/
def closeLast (text : List Char) : List Char :=
  match text.foldl openAfter none with
  | none => text
  | some q => Text.trimEnd text ++ [q]

/-- Each comment mark of the line stands in a literal. -/
def MarksQuoted (line : List Char) : Prop :=
  ∀ i < line.length, commentMark <+: line.drop i → ¬ IsClosed (line.take i)

instance (line : List Char) : Decidable (MarksQuoted line) :=
  inferInstanceAs (Decidable (∀ _ < _, _))

/-! ## Where reading stops -/

theorem beforeComment_append {front : List Char} (h : ¬ commentMark <:+: front)
    (rest : List Char) : beforeComment (front ++ (commentMark ++ rest)) = front := by
  fun_induction beforeComment front with
  | case1 => simp [beforeComment, commentMark]
  | case2 c => simp [beforeComment, commentMark]
  | case3 c d front hmark =>
    obtain ⟨rfl, rfl⟩ := hmark
    exact absurd ⟨[], front, rfl⟩ h
  | case4 c d front hmark ih =>
    have hrest := ih fun hin => h (hin.trans (List.suffix_cons c _).isInfix)
    rw [List.cons_append, List.cons_append, beforeComment, if_neg hmark, ← List.cons_append, hrest]

/-- What a line declares follows from the outline of what is kept of it. -/
theorem readsAs_of_outline? {line text : List Char} (h : outline? (kept line) = outline? text) :
    ReadsAs line text := by
  intro span
  rw [declared?, ← scan_congr h span, tokenize]
  obtain ⟨_, _, hs, ht⟩ | ⟨hs, ht⟩ | ⟨d, hs, ht⟩ := scan_cases (kept line)
    (Span.of (keptOffset line) (keptOffset line + Text.byteLength (kept line))) span
  all_goals
    rw [hs, ht]
    rfl

/-! ## Texts that end in a literal -/

/-- Before an open literal all others are closed. -/
theorem exists_open {text : List Char} {q : Char} (h : text.foldl openAfter none = some q) :
    ∃ front literal, text = front ++ q :: literal ∧ IsClosed front ∧ Token.isQuote q = true ∧
      q ∉ literal := by
  induction text using List.reverseRecOn with
  | nil => cases h
  | append_singleton text c ih =>
    rw [List.foldl_append, List.foldl_cons, List.foldl_nil] at h
    unfold openAfter at h
    split at h
    · rename_i hclosed
      split at h
      · rename_i hquote
        obtain rfl := Option.some.inj h
        exact ⟨text, [], rfl, hclosed, hquote, List.not_mem_nil⟩
      · cases h
    · rename_i open' hopen
      split at h
      · cases h
      · rename_i hne
        obtain rfl := Option.some.inj h
        obtain ⟨front, literal, rfl, hfront, hquote, hin⟩ := ih hopen
        refine ⟨front, literal ++ [c], by simp, hfront, hquote, ?_⟩
        simp [hin, Ne.symm hne]

theorem Token.split_open {q : Char} {text : List Char} (hq : isQuote q = true) (h : q ∉ text) :
    split (q :: text) = [literal text] := by
  have hall : ∀ c ∈ text, (c != q) = true := fun c hc => bne_iff_ne.2 fun hcq => h (hcq ▸ hc)
  have hend : ∀ c ∈ ([] : List Char).head?, (c != q) = false := by simp
  obtain ⟨htake, hdrop⟩ := Text.span_append hall hend
  rw [List.append_nil] at htake hdrop
  rw [split, if_neg (by rw [isBlank_of_isQuote hq]; exact Bool.false_ne_true), if_pos hq, htake,
    hdrop, List.drop_nil, split]

/-- A quote cannot stand right behind a name. -/
theorem split?_append_quote {q : Char} (hq : Token.isQuote q = true) (front rest : List Char) :
    Head.split? (front ++ q :: rest) = ((Head.split? front).filter fun h => !h.clauses.isEmpty).map
      fun h => { h with clauses := h.clauses ++ q :: rest } := by
  have hends : ∀ clauses, Head.endsName (clauses ++ q :: rest) =
      (!clauses.isEmpty && Head.endsName clauses) := by
    intro clauses
    cases clauses with
    | nil =>
      have hdot : q ≠ '.' := by
        rintro rfl
        cases hq
      simp [Head.endsName, Token.isBlank_of_isQuote hq, hdot]
    | cons c clauses => rfl
  cases hs : Head.split? (front ++ q :: rest) with
  | some h =>
    obtain ⟨start, hstart, htext, hend⟩ := exists_of_split? hs
    -- the quote stands behind the name, so there are clauses before it
    have hbehind : ∃ clauses, front = start ++ clauses ∧ h.clauses = clauses ++ q :: rest := by
      obtain ⟨more, rfl, hmore⟩ | ⟨more, rfl, hmore⟩ := List.append_eq_append_iff.1 htext
      · cases more with
        | nil => exact ⟨[], by simp, hmore.symm⟩
        | cons c more =>
          obtain rfl := (List.cons.inj hmore).1
          rw [hstart.not_isQuote q (by simp)] at hq
          cases hq
      · exact ⟨more, rfl, hmore⟩
    obtain ⟨clauses, rfl, hclauses⟩ := hbehind
    rw [hclauses, hends, Bool.and_eq_true] at hend
    rw [hstart.split?_eq hend.2, Option.filter_some, if_pos hend.1, Option.map_some, ← hclauses]
  | none =>
    cases hfront : Head.split? front with
    | none => rfl
    | some h =>
      obtain ⟨start, hstart, rfl, hend⟩ := exists_of_split? hfront
      have hnone : ¬ Head.endsName (h.clauses ++ q :: rest) = true := fun hend => by
        rw [List.append_assoc, hstart.split?_eq hend] at hs
        cases hs
      rw [hends, hend, Bool.and_true] at hnone
      rw [Option.filter_some, if_neg hnone, Option.map_none]

/-- What stands behind a quote matters by its tokens alone. -/
theorem outline?_append_quote {q : Char} {front rest rest' : List Char}
    (hq : Token.isQuote q = true) (hfront : IsClosed front)
    (h : Token.split (q :: rest) = Token.split (q :: rest')) :
    outline? (front ++ q :: rest) = outline? (front ++ q :: rest') := by
  have hends : ∀ cs, Token.EndsWord (q :: cs) := by
    rintro cs c ⟨⟩
    simp [Token.isWordChar, hq]
  rw [outline?, outline?, split?_append_quote hq, split?_append_quote hq, Option.map_map,
    Option.map_map]
  cases hs : Head.split? front with
  | none => rfl
  | some head =>
    obtain ⟨start, hstart, rfl, -⟩ := exists_of_split? hs
    have hclauses : IsClosed head.clauses := (isClosed_append hstart.isClosed _).1 hfront
    rw [Option.filter_some]
    split
    · simp only [Option.map_some, Function.comp_apply, Head.outline,
        Token.split_append hclauses (hends _), h]
    · rfl

/-- Blanks at the end of a text are not read, where its literals are closed. -/
theorem outline?_trimEnd {text : List Char} (h : IsClosed text) :
    outline? (Text.trimEnd text) = outline? text := by
  cases hs : startsEntry text with
  | true => exact outline?_congr (Text.trim_trimEnd text) hs h
  | false =>
    have hnone : ∀ cs, startsEntry cs = false → outline? cs = none := fun cs hcs => by
      rw [← Option.not_isSome_iff_eq_none, isSome_outline?, hcs]
      exact Bool.false_ne_true
    rw [hnone _ hs, hnone _ (by rw [startsEntry_trimEnd, hs])]

/-- A text without the blanks at its end is read as with its last literal closed. -/
theorem outline?_closeLast (text : List Char) :
    outline? (Text.trimEnd text) = outline? (closeLast text) := by
  unfold closeLast
  split
  · rename_i hclosed
    exact outline?_trimEnd hclosed
  · rename_i q hopen
    obtain ⟨front, literal, rfl, hfront, hq, hin⟩ := exists_open hopen
    have hlast : ∀ c ∈ (front ++ [q]).getLast?, Text.isBlank c = false := by
      simp [Token.isBlank_of_isQuote hq]
    have htrim : Text.trimEnd (front ++ q :: literal) = front ++ q :: Text.trimEnd literal := by
      have happend := Text.trimEnd_append hlast literal
      rwa [List.append_assoc, List.append_assoc] at happend
    have hnot : q ∉ Text.trimEnd literal := by
      obtain ⟨blanks, hliteral, -⟩ := Text.trimEnd_append_blanks literal
      rw [hliteral, List.mem_append, not_or] at hin
      exact hin.1
    rw [htrim, List.append_assoc]
    refine outline?_append_quote hq hfront ?_
    have hclose := Token.split_quoted hq hnot []
    rw [Token.split] at hclose
    exact (Token.split_open hq hnot).trans hclose.symm

/-! ## Lines -/

/-- A line is read up to the first mark in it.  Without one, and with its literals closed, it is
read whole. -/
theorem tokenize_up_to_mark (line : List Char) :
    (∀ front rest, afterMargin line = front ++ (commentMark ++ rest) →
      ¬ commentMark <:+: front → ReadsAs line (closeLast front)) ∧
    (¬ commentMark <:+: afterMargin line → ReadsAs line (closeLast (afterMargin line))) ∧
    (IsWhole line → IsClosed line → ReadsAs line line) := by
  have hkept : kept line = Text.trimEnd (beforeComment (afterMargin line)) := rfl
  refine ⟨fun front rest hline hmark => readsAs_of_outline? ?_,
    fun hmark => readsAs_of_outline? ?_, fun hwhole hclosed => readsAs_of_outline? ?_⟩
  · rw [hkept, hline, beforeComment_append hmark, outline?_closeLast]
  · rw [hkept, beforeComment_eq_self hmark, outline?_closeLast]
  · rw [kept_of_isWhole hwhole, outline?_trimEnd hclosed]

/-- A comment with a quote in it, behind a sequence area and a literal; and a literal with a star
in it. -/
theorem tokenize_up_to_mark_comment :
    let line := "000100 05 A PIC X(4) VALUE 'a b'. *> it's".toList
    let front := "05 A PIC X(4) VALUE 'a b'. ".toList
    let whole := "  05 B PIC X VALUE '*'.  ".toList
    afterMargin line = front ++ (commentMark ++ " it's".toList) ∧ ¬ commentMark <:+: front ∧
      ReadsAs line front ∧ IsWhole whole ∧ IsClosed whole ∧ ReadsAs whole whole := by
  intro line front whole
  have hline : afterMargin line = front ++ (commentMark ++ " it's".toList) := by decide +kernel
  have hmark : ¬ commentMark <:+: front := by decide +kernel
  have hclose : closeLast front = front := by decide +kernel
  have hwhole : IsWhole whole := by decide +kernel
  have hclosed : IsClosed whole := by decide +kernel
  have hread := (tokenize_up_to_mark line).1 front _ hline hmark
  rw [hclose] at hread
  exact ⟨hline, hmark, hread, hwhole, hclosed, (tokenize_up_to_mark whole).2.2 hwhole hclosed⟩

/-- A literal with a mark in it is cut, and the picture behind it is lost. -/
theorem mark_within_literal :
    let line := "05 A VALUE 'x*>y' PIC X(4).".toList
    hasSequenceArea line = false ∧ IsClosed line ∧ MarksQuoted line ∧ ¬ ReadsAs line line ∧
      (tokenize line).map (fun d => (d.kind, d.picture, d.value)) =
        some (.group, none, some "x") ∧
      (declared? line default).map (fun d => (d.kind, d.picture, d.value)) =
        some (.elementary, some "X(4)", some "x*>y") := by
  intro line
  refine ⟨by decide +kernel, by decide +kernel, by decide +kernel, fun h => ?_, by decide +kernel,
    by decide +kernel⟩
  have hread := h default
  revert hread
  decide +kernel

end DataDivision.Entry
