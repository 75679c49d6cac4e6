import DataDivision.Entry.Basic
import DataDivision.Proofs.Entry.Heads
import DataDivision.Proofs.Entry.Literals

/-!
Entries over several lines.

An entry may be cut at blanks outside its literals into as many lines as one likes.  The lines are
joined to one entry again, and that entry is read as the text before it was cut
(`scan_of_isBroken`).  What a text is read as follows from its level, its name and its tokens, and
cutting it leaves these as they are.
-/

namespace DataDivision.Entry

/-! ## What a text is read as -/

/-- The level and the name of an entry, and the tokens of its clauses. -/
structure Outline where
  level : Char × Char
  name : List Char
  tokens : List Token
  deriving DecidableEq, Repr

/-- The outline with tokens behind it. -/
def Outline.extend (o : Outline) (tokens : List Token) : Outline :=
  { o with tokens := o.tokens ++ tokens }

@[simp] theorem Outline.extend_nil (o : Outline) : o.extend [] = o := by
  rw [extend, List.append_nil]

@[simp] theorem Outline.extend_extend (o : Outline) (s t : List Token) :
    (o.extend s).extend t = o.extend (s ++ t) := by
  simp only [extend, List.append_assoc]

def Head.outline (h : Head) : Outline := ⟨h.level, h.name, Token.split h.clauses⟩

/-- The outline of a text that begins an entry. -/
def outline? (text : List Char) : Option Outline := (Head.split? text).map Head.outline

theorem isSome_outline? (text : List Char) : (outline? text).isSome = startsEntry text := by
  rw [outline?, Option.isSome_map, startsEntry]

/-- Two outlines have the same level and name, and their tokens are read alike. -/
def Outline.ReadsAs (o o' : Outline) : Prop :=
  o.level = o'.level ∧ o.name = o'.name ∧
    ({} : Clauses).read o.tokens = ({} : Clauses).read o'.tokens

/-- The clauses of an entry are read token by token. -/
theorem Head.describe_congr {h h' : Head} (ho : h.outline.ReadsAs h'.outline) (span : Span) :
    h.describe span = h'.describe span := by
  obtain ⟨level, name, clauses⟩ := h
  obtain ⟨level', name', clauses'⟩ := h'
  obtain ⟨hlevel, hname, hread⟩ := ho
  dsimp only [Head.outline] at hlevel hname hread
  subst hlevel hname
  unfold Head.describe Head.levelNumber
  rw [hread]

/-- Texts without a head are read alike, and so are those whose outlines are. -/
theorem scan_congr_of_readsAs {text text' : List Char}
    (h : Option.Rel Outline.ReadsAs (outline? text) (outline? text')) : scan text = scan text' := by
  funext span
  rw [scan, scan]
  unfold outline? at h
  cases hs : Head.split? text with
  | none =>
    cases hs' : Head.split? text' with
    | none => rfl
    | some head' =>
      rw [hs, hs'] at h
      cases h
  | some head =>
    cases hs' : Head.split? text' with
    | none =>
      rw [hs, hs'] at h
      cases h
    | some head' =>
      rw [hs, hs'] at h
      cases h with
      | some ho =>
        have hname : head.name = head'.name := ho.2.1
        simp only [Head.describe_congr ho, hname]

theorem scan_congr {text text' : List Char} (h : outline? text = outline? text') (span : Span) :
    scan text span = scan text' span := by
  refine congrFun (scan_congr_of_readsAs ?_) span
  rw [h]
  cases outline? text' with
  | none => exact .none
  | some o => exact .some ⟨rfl, rfl, rfl⟩

/-! ## Texts put together -/

/-- There are no quotes in a level and a name. -/
theorem Head.IsWritten.not_isQuote {h : Head} {front : List Char} (hw : h.IsWritten front) :
    ∀ c ∈ front, Token.isQuote c = false := by
  have hchar : ∀ c, isNameChar c = true → Token.isQuote c = false := fun c hc =>
    Token.isQuote_of_isWordChar (isWordChar_of_isNameChar hc).1
  have hdigit : ∀ c : Char, c.isDigit = true → Token.isQuote c = false := fun c hc =>
    hchar c (by simp [isNameChar, Char.isAlphanum, hc])
  have hblanks : ∀ blanks, Text.allBlank blanks = true →
      ∀ c ∈ blanks, Token.isQuote c = false := fun blanks hb c hc =>
    isQuote_of_isBlank (List.all_eq_true.1 hb c hc)
  cases hw with
  | mk hmargin htens hones hgap hname =>
    simp only [isDataName, Bool.and_eq_true, List.all_eq_true] at hname
    simp only [List.forall_mem_append]
    exact ⟨⟨⟨hblanks _ hmargin, by simp [hdigit _ htens, hdigit _ hones]⟩, hblanks _ hgap.2⟩,
      fun c hc => hchar c (hname.1 c hc)⟩

theorem Head.IsWritten.isClosed {h : Head} {front : List Char} (hw : h.IsWritten front) :
    IsClosed front :=
  isClosed_of_not_isQuote hw.not_isQuote

theorem BeginsBlank.endsWord {cs : List Char} (h : BeginsBlank cs) : Token.EndsWord cs :=
  fun c hc => Token.isWordChar_of_isBlank (h c hc)

/-- What is written behind a blank adds its tokens, unless a literal is open there. -/
theorem outline?_append {front rest : List Char} (hfront : startsEntry front = true)
    (hclosed : IsClosed front) (hrest : BeginsBlank rest) :
    outline? (front ++ rest) = (outline? front).map (·.extend (Token.split rest)) := by
  obtain ⟨h, hs⟩ := Option.isSome_iff_exists.1 hfront
  obtain ⟨start, hstart, rfl, -⟩ := exists_of_split? hs
  have hclauses : IsClosed h.clauses := (isClosed_append hstart.isClosed _).1 hclosed
  rw [outline?, outline?, split?_append hs hrest, hs]
  simp only [Option.map_some, Head.outline, Outline.extend,
    Token.split_append hclauses hrest.endsWord]

theorem Token.split_allBlank {blanks : List Char} (h : Text.allBlank blanks = true) :
    split blanks = [] := by
  have hsplit := split_blanks h []
  rwa [List.append_nil, split] at hsplit

theorem Token.split_trim {cs : List Char} (h : IsClosed cs) :
    split (Text.trim cs) = split cs := by
  obtain ⟨front, back, hcs, hfront, hback⟩ := Text.exists_trim cs
  have hends := (beginsBlank_of_allBlank hback).endsWord
  have hsplit := split_blanks hfront (Text.trim cs ++ back)
  rw [← hcs, split_append ((isClosed_trim cs).2 h) hends, split_allBlank hback,
    List.append_nil] at hsplit
  exact hsplit.symm

theorem outline?_trim {cs : List Char} (hs : startsEntry cs = true) (h : IsClosed cs) :
    outline? (Text.trim cs) = outline? cs := by
  obtain ⟨front, back, hcs, hfront, hback⟩ := Text.exists_trim cs
  have hsplit := split?_blanks hfront (Text.trim cs ++ back)
  rw [← hcs] at hsplit
  rw [← startsEntry_trim] at hs
  have happend := outline?_append hs ((isClosed_trim cs).2 h) (beginsBlank_of_allBlank hback)
  rw [outline?, ← hsplit, ← outline?, Token.split_allBlank hback] at happend
  simpa using happend.symm

theorem outline?_congr {cs ds : List Char} (htrim : Text.trim cs = Text.trim ds)
    (hs : startsEntry ds = true) (h : IsClosed ds) : outline? cs = outline? ds := by
  have hs' : startsEntry cs = true := by rw [← startsEntry_trim, htrim, startsEntry_trim, hs]
  have h' : IsClosed cs := by rwa [← isClosed_trim, htrim, isClosed_trim]
  rw [← outline?_trim hs' h', htrim, outline?_trim hs h]

/-! ## Lines -/

/-- Nothing of the line is left out: it has no sequence area and no comment. -/
def IsWhole (text : List Char) : Prop :=
  hasSequenceArea text = false ∧ ¬ ['*', '>'] <:+: text

instance (text : List Char) : Decidable (IsWhole text) := inferInstanceAs (Decidable (_ ∧ _))

theorem beforeComment_eq_self {cs : List Char} (h : ¬ ['*', '>'] <:+: cs) :
    beforeComment cs = cs := by
  fun_induction beforeComment cs with
  | case1 => rfl
  | case2 => rfl
  | case3 c d rest hmark =>
    obtain ⟨rfl, rfl⟩ := hmark
    exact absurd ⟨[], rest, rfl⟩ h
  | case4 c d rest hmark ih =>
    rw [ih fun hrest => h (hrest.trans (List.suffix_cons c _).isInfix)]

theorem kept_of_isWhole {text : List Char} (h : IsWhole text) : kept text = Text.trimEnd text := by
  rw [kept, marginOf, h.1, if_neg Bool.false_ne_true, List.drop_zero, beforeComment_eq_self h.2]

theorem allBlank_trimEnd (cs : List Char) :
    Text.allBlank (Text.trimEnd cs) = Text.allBlank cs := by
  rw [Bool.eq_iff_iff, ← Text.trim_eq_nil_iff, ← Text.trim_eq_nil_iff, Text.trim_trimEnd]

theorem ofLine?_blank {line : Line} (hw : IsWhole line.text)
    (h : Text.allBlank line.text = true) : ofLine? none line = none := by
  simp only [ofLine?, unmask, kept_of_isWhole hw, allBlank_trimEnd, h, if_true]

theorem exists_ofLine? {line : Line} (hw : IsWhole line.text)
    (h : Text.allBlank line.text = false) :
    ∃ e, ofLine? none line = some e ∧ e.text = Text.trimEnd line.text ∧ e.line = line.number := by
  simp [ofLine?, unmask, kept_of_isWhole hw, allBlank_trimEnd, h]

/-- Blank lines are passed over. -/
theorem join_blanks {blanks : List Line}
    (h : ∀ line ∈ blanks, IsWhole line.text ∧ Text.allBlank line.text = true)
    (pending : Option Entry) (lines : List Line) :
    join none pending (blanks ++ lines) = join none pending lines := by
  induction blanks with
  | nil => rfl
  | cons line blanks ih =>
    obtain ⟨⟨hw, hb⟩, hblanks⟩ := List.forall_mem_cons.1 h
    simp only [List.cons_append, join, ofLine?_blank hw hb]
    exact ih hblanks

def endsPeriod (text : List Char) : Bool := (Text.trimEnd text).getLast? == some '.'

theorem endsPeriod_trimEnd (text : List Char) :
    endsPeriod (Text.trimEnd text) = endsPeriod text := by
  rw [endsPeriod, endsPeriod, Text.trimEnd_trimEnd]

/-! ## Cutting a text into lines -/

/-- The text stands on the lines.  It is cut at blanks outside its literals, and a piece is indented
and has blanks behind it at will.  Lines without a piece may stand anywhere. -/
inductive IsCut : List Char → List (List Char) → Prop
  | nil : IsCut [] []
  | blank {text line : List Char} {lines : List (List Char)} :
    Text.allBlank line = true → IsCut text lines → IsCut text (line :: lines)
  | piece {front rest line : List Char} {lines : List (List Char)} :
    IsClosed front → BeginsBlank rest → Text.trim line = Text.trim front → IsCut rest lines →
    IsCut (front ++ rest) (line :: lines)

/-- On blank lines there is nothing but blanks. -/
theorem IsCut.exists_of_blanks {text : List Char} {blanks lines : List (List Char)}
    (hblanks : ∀ line ∈ blanks, Text.allBlank line = true) (h : IsCut text (blanks ++ lines)) :
    ∃ front rest, text = front ++ rest ∧ Text.allBlank front = true ∧ IsCut rest lines := by
  induction blanks generalizing text with
  | nil => exact ⟨[], text, rfl, rfl, h⟩
  | cons line blanks ih =>
    obtain ⟨hline, hblanks⟩ := List.forall_mem_cons.1 hblanks
    cases h with
    | blank _ h => exact ih hblanks h
    | piece hclosed hbegins htrim h =>
      rename_i piece rest
      obtain ⟨front, rest, rfl, hfront, hrest⟩ := ih hblanks h
      rw [Text.trim_eq_nil_iff.2 hline, eq_comm, Text.trim_eq_nil_iff] at htrim
      refine ⟨piece ++ front, rest, (List.append_assoc _ _ _).symm, ?_, hrest⟩
      rw [Text.allBlank, List.all_append]
      exact Bool.and_eq_true_iff.2 ⟨htrim, hfront⟩

/-- On a line that is not blank there is a piece of the text. -/
theorem IsCut.exists_piece {text line : List Char} {lines : List (List Char)}
    (hblank : Text.allBlank line = false) (h : IsCut text (line :: lines)) :
    ∃ front rest, text = front ++ rest ∧ IsClosed front ∧ BeginsBlank rest ∧
      Text.trim line = Text.trim front ∧ IsCut rest lines := by
  cases h with
  | blank hline =>
    rw [hblank] at hline
    cases hline
  | piece hclosed hbegins htrim h => exact ⟨_, _, rfl, hclosed, hbegins, htrim, h⟩

/-! ## Joining the lines of an entry -/

theorem text_append (e next : Entry) :
    (e.append next).text = e.text ++ ' ' :: Text.trim next.text := rfl

/-- A text that goes on ends in a period if what it goes on with does. -/
theorem endsPeriod_append (front : List Char) {text : List Char}
    (h : Text.allBlank text = false) :
    endsPeriod (front ++ ' ' :: Text.trim text) = endsPeriod text := by
  have hne : Text.trim text ≠ [] := by
    rw [Ne, Text.trim_eq_nil_iff, h]
    exact Bool.false_ne_true
  have hlast : ∀ cs : List Char, (cs ++ Text.trim text).getLast? = (Text.trim text).getLast? :=
    fun cs => by
      rw [List.getLast?_append, List.getLast?_eq_some_getLast hne, Option.some_or]
  have htext : front ++ ' ' :: Text.trim text = (front ++ [' ']) ++ Text.trim text := by
    rw [List.append_assoc, List.singleton_append]
  -- the text ends with the trimmed piece, and that ends with no blank
  have htrim : Text.trimEnd (front ++ ' ' :: Text.trim text) = front ++ ' ' :: Text.trim text := by
    have hblank := Text.isBlank_getLast_trimEnd (Text.dropBlanks text)
    rw [← Text.trim, ← hlast (front ++ [' ']), ← htext] at hblank
    simpa [Text.trimEnd] using Text.trimEnd_append hblank []
  rw [endsPeriod, htrim, htext, hlast, Text.getLast?_trim hne, endsPeriod]

theorem isTerminated_append (e : Entry) {next : Entry} (h : Text.allBlank next.text = false) :
    (e.append next).isTerminated = endsPeriod next.text :=
  endsPeriod_append e.text h

/-- A line adds the tokens of its piece to the entry. -/
theorem outline?_append_piece {e next : Entry} {front : List Char}
    (hstarts : startsEntry e.text = true) (hclosed : IsClosed e.text) (hfront : IsClosed front)
    (htrim : Text.trim next.text = Text.trim front) :
    IsClosed (e.append next).text ∧
      outline? (e.append next).text = (outline? e.text).map (·.extend (Token.split front)) := by
  have hspace : Text.allBlank [' '] = true := by decide +kernel
  have hpiece : IsClosed (' ' :: Text.trim front) :=
    (isClosed_append (isClosed_blanks hspace) _).2 ((isClosed_trim _).2 hfront)
  have hbegins : BeginsBlank (' ' :: Text.trim front) := by
    rintro c ⟨⟩
    decide +kernel
  rw [text_append, htrim]
  refine ⟨(isClosed_append hclosed _).2 hpiece, ?_⟩
  rw [outline?_append hstarts hclosed hbegins, ← List.singleton_append, Token.split_blanks hspace,
    Token.split_trim hfront]

/-- The entries of the lines behind one that an entry has taken, and of that entry. -/
def joinBehind (e : Entry) (lines : List Line) : List Entry :=
  if e.isTerminated then e :: join none none lines else join none (some e) lines

theorem joinBehind_nil (e : Entry) : joinBehind e [] = [e] := by
  unfold joinBehind
  split <;> rfl

theorem joinBehind_blank (e : Entry) {line : Line} (hw : IsWhole line.text)
    (h : Text.allBlank line.text = true) (lines : List Line) :
    joinBehind e (line :: lines) = joinBehind e lines := by
  simp only [joinBehind, join, ofLine?_blank hw h]

/-- A line that does not start an entry is taken by the entry before it. -/
theorem joinBehind_piece {e next : Entry} {line : Line} (hopen : e.isTerminated = false)
    (hnext : ofLine? none line = some next) (h : startsEntry next.text = false)
    (lines : List Line) : joinBehind e (line :: lines) = joinBehind (e.append next) lines := by
  simp only [joinBehind, hopen, join, hnext, continued?, h, Bool.false_eq_true, if_false,
    Option.map_some]

theorem join_starts {e : Entry} {line : Line} (hline : ofLine? none line = some e)
    (h : startsEntry e.text = true) (lines : List Line) :
    join none none (line :: lines) = joinBehind e lines := by
  simp only [joinBehind, join, hline, continued?, h, isOpen, Bool.true_and, if_true]
  cases e.isTerminated <;> rfl

/-- Lines on which a text stands are all taken by the entry before them, and add the tokens of the
text to it. -/
theorem joinBehind_cut {e : Entry} {text : List Char} {lines : List Line}
    (hcut : IsCut text (lines.map (·.text))) (hstarts : startsEntry e.text = true)
    (hclosed : IsClosed e.text)
    (hended : e.isTerminated = true → ∀ line ∈ lines, Text.allBlank line.text = true)
    (hlines : ∀ line ∈ lines, IsWhole line.text ∧ startsEntry line.text = false)
    (hperiod : lines.Pairwise fun a b => endsPeriod a.text = true → Text.allBlank b.text = true) :
    ∃ e', joinBehind e lines = [e'] ∧ e'.line = e.line ∧
      outline? e'.text = (outline? e.text).map (·.extend (Token.split text)) := by
  -- each line leaves an entry whose literals are closed and which, if its period was met, has only
  -- blank lines behind it
  induction lines generalizing e text with
  | nil =>
    cases hcut
    refine ⟨e, joinBehind_nil e, rfl, ?_⟩
    simp [Token.split]
  | cons line lines ih =>
    obtain ⟨⟨hwhole, hline⟩, hlines⟩ := List.forall_mem_cons.1 hlines
    obtain ⟨hbehind, hperiod⟩ := List.pairwise_cons.1 hperiod
    cases hblank : Text.allBlank line.text with
    | true =>
      have hline : ∀ text ∈ [line.text], Text.allBlank text = true := by simpa using hblank
      obtain ⟨front, rest, rfl, hfront, hcut⟩ := IsCut.exists_of_blanks hline hcut
      rw [joinBehind_blank e hwhole hblank, Token.split_blanks hfront]
      exact ih hcut hstarts hclosed (fun h => (List.forall_mem_cons.1 (hended h)).2) hlines hperiod
    | false =>
      have hopen : e.isTerminated = false := by
        rw [← Bool.not_eq_true]
        intro h
        rw [(List.forall_mem_cons.1 (hended h)).1] at hblank
        cases hblank
      obtain ⟨next, hnext, htext, -⟩ := exists_ofLine? hwhole hblank
      obtain ⟨front, rest, rfl, hfront, hrest, htrim, hcut⟩ := hcut.exists_piece hblank
      rw [← Text.trim_trimEnd, ← htext] at htrim
      obtain ⟨hclosed', ho⟩ := outline?_append_piece hstarts hclosed hfront htrim
      have hstarts' : startsEntry (e.append next).text = true := by
        rw [← isSome_outline?, ho, Option.isSome_map, isSome_outline?, hstarts]
      have hended' : (e.append next).isTerminated = endsPeriod line.text := by
        rw [isTerminated_append e (by rw [htext, allBlank_trimEnd, hblank]), htext,
          endsPeriod_trimEnd]
      obtain ⟨e', hjoin, hnumber, ho'⟩ := ih hcut hstarts' hclosed'
        (fun h line hline => hbehind line hline (hended'.symm.trans h)) hlines hperiod
      refine ⟨e', ?_, hnumber, ?_⟩
      · rw [joinBehind_piece hopen hnext (by rw [htext, startsEntry_trimEnd, hline]), hjoin]
      · rw [ho', ho, Token.split_append hfront hrest.endsWord, Option.map_map]
        simp only [Function.comp_def, Outline.extend_extend]

/-- The line that starts an entry and the lines behind it make one entry, with the outline of the
text that stands on them. -/
theorem join_cut {text : List Char} {first : Line} {later : List Line}
    (hcut : IsCut text (first.text :: later.map (·.text))) (hstarts : startsEntry first.text = true)
    (hwhole : IsWhole first.text)
    (hlater : ∀ line ∈ later, IsWhole line.text ∧ startsEntry line.text = false)
    (hperiod : (first :: later).Pairwise fun a b =>
      endsPeriod a.text = true → Text.allBlank b.text = true) :
    ∃ e, join none none (first :: later) = [e] ∧ e.line = first.number ∧
      outline? e.text = outline? text := by
  obtain ⟨hended, hperiod⟩ := List.pairwise_cons.1 hperiod
  have hblank := allBlank_of_startsEntry hstarts
  obtain ⟨front, rest, rfl, hfront, hrest, htrim, hcut⟩ := hcut.exists_piece hblank
  obtain ⟨e, he, htext, hnumber⟩ := exists_ofLine? hwhole hblank
  rw [← Text.trim_trimEnd, ← htext] at htrim
  rw [← startsEntry_trimEnd, ← htext] at hstarts
  have hstartsFront : startsEntry front = true := by
    rw [← startsEntry_trim, ← htrim, startsEntry_trim, hstarts]
  have hclosed : IsClosed e.text := by rwa [← isClosed_trim, htrim, isClosed_trim]
  have hterminated : e.isTerminated = endsPeriod first.text := by
    rw [← endsPeriod_trimEnd, ← htext]
    rfl
  obtain ⟨e', hjoin, hnumber', ho⟩ := joinBehind_cut hcut hstarts hclosed
    (fun h line hline => hended line hline (hterminated.symm.trans h)) hlater hperiod
  refine ⟨e', by rw [join_starts he hstarts, hjoin], hnumber'.trans hnumber, ?_⟩
  rw [ho, outline?_congr htrim hstartsFront hfront, outline?_append hstartsFront hfront hrest]

/-! ## Breaking an entry -/

/-- The text of an entry stands on lines: on the line `first` with the level and the name, on the
lines behind it, and maybe below blank lines. -/
structure IsBroken (text : List Char) (before : List Line) (first : Line) (later : List Line) :
    Prop where
  cut : IsCut text ((before ++ first :: later).map (·.text))
  blank : ∀ line ∈ before, Text.allBlank line.text = true
  starts : startsEntry first.text = true
  /-- No later line starts an entry by itself. -/
  continues : ∀ line ∈ later, startsEntry line.text = false
  /-- Behind a line that ends in a period there are only blank lines. -/
  period : (first :: later).Pairwise fun a b =>
    endsPeriod a.text = true → Text.allBlank b.text = true
  whole : ∀ line ∈ before ++ first :: later, IsWhole line.text

/-- An entry is read alike however it is broken over lines. -/
theorem scan_of_isBroken {text : List Char} {before later : List Line} {first : Line}
    (h : IsBroken text before first later) :
    ∃ e, ofLines none (before ++ first :: later) = [e] ∧ e.line = first.number ∧
      ∀ span, scan e.text span = scan text span := by
  obtain ⟨hcut, hblank, hstarts, hcontinues, hperiod, hwhole⟩ := h
  obtain ⟨hwholeBefore, hwhole⟩ := List.forall_mem_append.1 hwhole
  obtain ⟨hwholeFirst, hwholeLater⟩ := List.forall_mem_cons.1 hwhole
  rw [List.map_append, List.map_cons] at hcut
  obtain ⟨margin, body, rfl, hmargin, hcut⟩ := hcut.exists_of_blanks (by simpa using hblank)
  obtain ⟨e, hjoin, hnumber, ho⟩ := join_cut hcut hstarts hwholeFirst
    (fun line hline => ⟨hwholeLater line hline, hcontinues line hline⟩) hperiod
  refine ⟨e, ?_, hnumber, scan_congr ?_⟩
  · rw [ofLines, join_blanks fun line hline => ⟨hwholeBefore line hline, hblank line hline⟩, hjoin]
  · rw [ho, outline?, outline?, split?_blanks hmargin]

/-- An item broken within its repetition, before its value and before its period. -/
theorem scan_of_isBroken_occurs :
    let before : List Line := [⟨1, [], .of 0 0⟩]
    let first : Line := ⟨2, "  05 T OCCURS 1 ".toList, .of 1 17⟩
    let later : List Line :=
      [⟨3, "     TO 5".toList, .of 18 27⟩, ⟨4, "   ".toList, .of 28 31⟩,
       ⟨5, "TIMES PIC X(3) VALUE".toList, .of 32 52⟩, ⟨6, "  'A. B'".toList, .of 53 61⟩,
       ⟨7, "  .".toList, .of 62 65⟩]
    ∃ e, ofLines none (before ++ first :: later) = [e] ∧ e.line = first.number ∧ ∀ span,
      scan e.text span =
        scan "05 T OCCURS 1 TO 5 TIMES PIC X(3) VALUE 'A. B' .".toList span := by
  have htext : "05 T OCCURS 1 TO 5 TIMES PIC X(3) VALUE 'A. B' .".toList =
      "05 T OCCURS 1".toList ++ (" TO 5".toList ++ (" TIMES PIC X(3) VALUE".toList ++
        (" 'A. B'".toList ++ (" .".toList ++ [])))) := by decide +kernel
  rw [htext]
  refine scan_of_isBroken ⟨.blank rfl ?_, by decide +kernel, by decide +kernel, by decide +kernel,
    by decide +kernel, by decide +kernel⟩
  refine .piece (by decide +kernel) (by decide +kernel) (by decide +kernel) ?_
  refine .piece (by decide +kernel) (by decide +kernel) (by decide +kernel) ?_
  refine .blank (by decide +kernel) ?_
  refine .piece (by decide +kernel) (by decide +kernel) (by decide +kernel) ?_
  refine .piece (by decide +kernel) (by decide +kernel) (by decide +kernel) ?_
  exact .piece (by decide +kernel) (by decide +kernel) (by decide +kernel) .nil

end DataDivision.Entry
