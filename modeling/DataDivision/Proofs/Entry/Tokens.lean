import DataDivision.Proofs.Entry.Literals
import DataDivision.Proofs.Text.Words

/-!
Reading a text token by token.

`Token.readAll?` takes tokens off the front of a text while it finds any, and gives up on a token
that takes nothing.  It never gives up: its tokens are those of `split`, and only blanks are left
(`exists_readAll?`).  Each character outside literals that is neither blank nor a quote, and each
character of a literal, is in one place of one token (`significant_eq`).
-/

namespace DataDivision.Entry

namespace Token

/-! ## One token -/

/-- The text behind the given character. -/
def skip? (c : Char) : List Char → Option (List Char)
  | [] => none
  | d :: rest => if d = c then some rest else none

/-- A literal between the given quotes; the second one may be missing. -/
def quotedBy? (q : Char) (cs : List Char) : Option (List Char × List Char) :=
  (skip? q cs).map fun rest =>
    let after := rest.dropWhile (· != q)
    (rest.takeWhile (· != q), (skip? q after).getD after)

def quoted? (cs : List Char) : Option (List Char × List Char) :=
  (quotedBy? '\'' cs).or (quotedBy? '"' cs)

def bareWord? (cs : List Char) : Option (List Char × List Char) :=
  let text := cs.takeWhile isWordChar
  if text.isEmpty then none else some (text, cs.dropWhile isWordChar)

/-- The first token behind the blanks, and the text behind it. -/
def read? (cs : List Char) : Option (Token × List Char) :=
  let body := Text.dropBlanks cs
  ((quoted? body).map fun x => (literal x.1, x.2)).or
    ((bareWord? body).map fun x => (word x.1, x.2))

/-- Tokens while there are any, and the text behind them; nothing if one of them takes no text. -/
def readAll? (cs : List Char) : Option (List Token × List Char) :=
  match read? cs with
  | none => some ([], cs)
  | some (token, rest) =>
    if rest.length < cs.length then (readAll? rest).map fun x => (token :: x.1, x.2) else none
termination_by cs.length

theorem skip?_dropWhile (q : Char) (cs : List Char) :
    (skip? q (cs.dropWhile (· != q))).getD (cs.dropWhile (· != q)) =
      (cs.dropWhile (· != q)).drop 1 := by
  have hhead := List.head?_dropWhile_not (· != q) cs
  cases hd : cs.dropWhile (· != q) with
  | nil => rfl
  | cons d rest =>
    rw [hd] at hhead
    have hdq : d = q := by simpa using hhead
    rw [skip?, if_pos hdq]
    rfl

theorem quoted?_of_isQuote {q : Char} (h : isQuote q = true) (cs : List Char) :
    quoted? (q :: cs) = some (cs.takeWhile (· != q), (cs.dropWhile (· != q)).drop 1) := by
  have hself : quotedBy? q (q :: cs) =
      some (cs.takeWhile (· != q), (cs.dropWhile (· != q)).drop 1) := by
    rw [quotedBy?, skip?, if_pos rfl, Option.map_some, ← skip?_dropWhile]
  simp only [isQuote, Bool.or_eq_true, beq_iff_eq] at h
  rcases h with rfl | rfl
  · rw [quoted?, hself]
    rfl
  · have hother : quotedBy? '\'' ('"' :: cs) = none := rfl
    rw [quoted?, hself, hother]
    rfl

theorem quoted?_of_not_isQuote {c : Char} (h : isQuote c = false) (cs : List Char) :
    quoted? (c :: cs) = none := by
  simp only [isQuote, Bool.or_eq_false_iff, beq_eq_false_iff_ne] at h
  simp [quoted?, quotedBy?, skip?, h]

theorem bareWord?_of_isWordChar {c : Char} (h : isWordChar c = true) (cs : List Char) :
    bareWord? (c :: cs) = some (c :: cs.takeWhile isWordChar, cs.dropWhile isWordChar) := by
  simp [bareWord?, h]

/-- Either only blanks are left, or a token is read that is the next one of `split` and takes some
text. -/
theorem read?_cases (cs : List Char) :
    (Text.allBlank cs = true ∧ read? cs = none ∧ split cs = []) ∨
      ∃ token rest, read? cs = some (token, rest) ∧ split cs = token :: split rest ∧
        rest.length < cs.length := by
  have hblanks : Text.allBlank (cs.takeWhile Text.isBlank) = true := List.all_takeWhile
  have hcs : cs = cs.takeWhile Text.isBlank ++ Text.dropBlanks cs :=
    List.takeWhile_append_dropWhile.symm
  have hsplit : split cs = split (Text.dropBlanks cs) :=
    (congrArg split hcs).trans (split_blanks hblanks _)
  cases hbody : Text.dropBlanks cs with
  | nil =>
    rw [hbody] at hsplit
    refine .inl ⟨Text.dropBlanks_eq_nil_iff.1 hbody, ?_, by rw [hsplit, split]⟩
    rw [read?, hbody]
    rfl
  | cons c body =>
    have hle : (c :: body).length ≤ cs.length := by
      rw [← hbody]
      exact (List.dropWhile_sublist _).length_le
    have hblank : Text.isBlank c = false := by
      have hhead := List.head?_dropWhile_not Text.isBlank cs
      rw [← Text.dropBlanks, hbody] at hhead
      simpa using hhead
    rw [hbody] at hsplit
    rw [split, hblank] at hsplit
    refine .inr ?_
    cases hquote : isQuote c with
    | true =>
      rw [hquote] at hsplit
      refine ⟨_, _, ?_, hsplit, ?_⟩
      · rw [read?, hbody, quoted?_of_isQuote hquote]
        rfl
      · have := (List.dropWhile_suffix (l := body) (· != c)).length_le
        simp only [List.length_drop, List.length_cons] at hle ⊢
        omega
    | false =>
      rw [hquote] at hsplit
      have hword : isWordChar c = true := by simp [isWordChar, hblank, hquote]
      refine ⟨_, _, ?_, hsplit, ?_⟩
      · rw [read?, hbody, quoted?_of_not_isQuote hquote, bareWord?_of_isWordChar hword]
        rfl
      · have := (List.dropWhile_suffix (l := body) isWordChar).length_le
        simp only [List.length_cons] at hle ⊢
        omega

/-- Every text is read to its end, into the tokens of `split`. -/
theorem exists_readAll? (cs : List Char) :
    ∃ rest, readAll? cs = some (split cs, rest) ∧ Text.allBlank rest = true := by
  rw [readAll?]
  rcases read?_cases cs with ⟨hblank, hread, hsplit⟩ | ⟨token, rest, hread, hsplit, hlt⟩
  · rw [hread, hsplit]
    exact ⟨cs, rfl, hblank⟩
  · obtain ⟨after, hafter, hblank⟩ := exists_readAll? rest
    refine ⟨after, ?_, hblank⟩
    simp only [hread, hsplit, hlt, if_true, hafter, Option.map_some]
termination_by cs.length

/-! ## What the tokens hold -/

/-- The characters of a token, each marked with whether it is one of a literal. -/
def marked : Token → List (Bool × Char)
  | word text => text.map (false, ·)
  | literal text => text.map (true, ·)

end Token

/-- The characters that tokens are made of, each marked with whether it stands in a literal: outside
literals those that are neither blank nor a quote, inside all but the quote that ends it. -/
def significant (quote : Option Char) : List Char → List (Bool × Char)
  | [] => []
  | c :: cs =>
    (match quote with
      | none => if Token.isWordChar c then [(false, c)] else []
      | some q => if c = q then [] else [(true, c)]) ++ significant (openAfter quote c) cs

namespace Token

theorem significant_literal (q : Char) (cs : List Char) :
    significant (some q) cs = (literal (cs.takeWhile (· != q))).marked ++
      significant none ((cs.dropWhile (· != q)).drop 1) := by
  induction cs with
  | nil => rfl
  | cons c cs ih =>
    by_cases hc : c = q
    · simp [significant, openAfter, marked, hc]
    · simp only [significant, openAfter, hc, if_false, ih]
      simp [marked, hc]

theorem significant_word {text : List Char} (h : ∀ c ∈ text, isWordChar c = true)
    (cs : List Char) : significant none (text ++ cs) = (word text).marked ++ significant none cs := by
  induction text with
  | nil => rfl
  | cons c text ih =>
    obtain ⟨hc, htext⟩ := List.forall_mem_cons.1 h
    have hquote := isQuote_of_isWordChar hc
    simp only [List.cons_append, significant, openAfter, hc, hquote, if_true, Bool.false_eq_true,
      if_false, ih htext]
    rfl

/-- The tokens hold every significant character once, in order. -/
theorem significant_eq (cs : List Char) :
    significant none cs = (split cs).flatMap marked := by
  fun_induction split cs with
  | case1 => rfl
  | case2 c rest hblank ih =>
    have hquote := isQuote_of_isBlank hblank
    simp only [significant, openAfter, isWordChar_of_isBlank hblank, hquote, Bool.false_eq_true,
      if_false, List.nil_append, ih]
  | case3 c rest hblank hquote ih =>
    have hword : isWordChar c = false := by simp [isWordChar, hquote]
    simp only [significant, openAfter, hword, hquote, Bool.false_eq_true, if_false, if_true,
      List.nil_append, significant_literal, ih, List.flatMap_cons]
  | case4 c rest hblank hquote ih =>
    have hc : isWordChar c = true := by simp [isWordChar, hblank, hquote]
    have htext : ∀ d ∈ c :: rest.takeWhile isWordChar, isWordChar d = true :=
      List.forall_mem_cons.2 ⟨hc, List.all_eq_true.1 List.all_takeWhile⟩
    have hcs : c :: rest = (c :: rest.takeWhile isWordChar) ++ rest.dropWhile isWordChar := by
      rw [List.cons_append, List.takeWhile_append_dropWhile]
    rw [hcs, significant_word htext, ih, List.flatMap_cons]

end Token

end DataDivision.Entry
