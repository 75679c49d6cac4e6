import DataDivision.Proofs.Entry.Heads
import DataDivision.Proofs.Entry.Joining
import DataDivision.Proofs.Text.Words
import Mathlib.Data.List.Chain

/-!
The lines of entries.

The lines of which something is read fall into blocks, one for each entry: a line belongs to the
block before it if that block takes it, and begins a block of its own if not.  No other division of
the lines into blocks does so (`isDivision_iff`), and the entry of a block has the words of
its lines (`entries_divide_lines`).
-/

namespace DataDivision.Entry

def readText (code : Option Columns) (line : Line) : List Char := kept (unmask code line.text)

/-- Something of the line is read. -/
def isRead (code : Option Columns) (line : Line) : Bool := !Text.allBlank (readText code line)

/-- The line starts an entry as it is read. -/
def startsIn (code : Option Columns) (line : Line) : Bool := startsEntry (readText code line)

/-- The line as an entry of its own. -/
def ofLine (code : Option Columns) (line : Line) : Entry :=
  let offset := keptOffset (unmask code line.text)
  ⟨readText code line,
    line.span.slice offset (offset + Text.byteLength (readText code line)), line.number⟩

/-- Lines that make one entry: the line that it starts on, and those that continue it. -/
structure Block where
  first : Line
  later : List Line := []
  deriving DecidableEq, Repr

namespace Block

def lines (b : Block) : List Line := b.first :: b.later

def snoc (b : Block) (line : Line) : Block := { b with later := b.later ++ [line] }

/-- The entry that the lines of a block make. -/
def entry (code : Option Columns) (b : Block) : Entry :=
  b.later.foldl (fun e line => e.append (ofLine code line)) (ofLine code b.first)

/-- The line continues the entry of the block: it starts no entry, and that entry begins with a
level and a name and has not met its period. -/
def takes (code : Option Columns) (b : Block) (line : Line) : Bool :=
  !startsIn code line && (b.entry code).isOpen

end Block

def addLine (code : Option Columns) (blocks : List Block) (line : Line) : List Block :=
  if isRead code line then
    match blocks.getLast?.filter (·.takes code line) with
    | some b => blocks.dropLast ++ [b.snoc line]
    | none => blocks ++ [{ first := line }]
  else blocks

def blocksOf (code : Option Columns) (lines : List Line) : List Block :=
  lines.foldl (addLine code) []

/-- The blocks hold the lines of which something is read, in their order.  A line stands in the
block before it if that takes it, and only then. -/
structure IsDivision (code : Option Columns) (lines : List Line) (blocks : List Block) : Prop where
  lines_eq : blocks.flatMap Block.lines = lines.filter (isRead code)
  continues : ∀ b ∈ blocks, ∀ (before : List Line) (line : Line), before ++ [line] <+: b.later →
    Block.takes code ⟨b.first, before⟩ line = true
  begins : blocks.IsChain fun b c => b.takes code c.first = false

section

variable {code : Option Columns} {line : Line} {blocks : List Block} {b : Block}

/-! ## Single lines -/

/-- A line is read as it is, or with the columns of the code blanked. -/
theorem unmask_cases (code : Option Columns) (text : List Char) : unmask code text = text ∨
    ∃ columns, code = some columns ∧ unmask code text = mask columns text := by
  unfold unmask
  split
  · exact .inl rfl
  · rename_i columns
    split
    · exact .inl rfl
    · split
      · exact .inr ⟨columns, rfl, rfl⟩
      · exact .inl rfl

theorem ofLine?_eq (code : Option Columns) (line : Line) :
    ofLine? code line = if isRead code line then some (ofLine code line) else none := by
  simp only [ofLine?, isRead, readText, ofLine, Bool.not_eq_true']
  split <;> simp [*]

/-- Of a line that starts an entry something is read. -/
theorem isRead_of_startsIn (h : startsIn code line = true) : isRead code line = true := by
  rw [isRead, allBlank_of_startsEntry h]
  rfl

/-- Joined lines leave the beginning of an entry as it is. -/
theorem startsEntry_append {e : Entry} (h : startsEntry e.text = true) (next : Entry) :
    startsEntry (e.append next).text = true := by
  obtain ⟨head, hs⟩ := Option.isSome_iff_exists.1 h
  have hblank : BeginsBlank (' ' :: Text.trim next.text) := by
    rintro c ⟨⟩
    decide +kernel
  have happend : Head.split? (e.append next).text = _ := split?_append hs hblank
  rw [startsEntry, happend]
  rfl

theorem isOpen_append {e : Entry} (h : e.isOpen = true) (next : Entry) :
    (e.append next).isOpen = !(e.append next).isTerminated := by
  rw [isOpen, startsEntry_append (Bool.and_eq_true_iff.1 h).1, Bool.true_and]

@[simp] theorem Block.entry_snoc (code : Option Columns) (b : Block) (line : Line) :
    (b.snoc line).entry code = (b.entry code).append (ofLine code line) := by
  rw [entry, entry, snoc, List.foldl_concat]

/-! ## One more line -/

theorem addLine_unread (h : isRead code line = false) : addLine code blocks line = blocks := by
  rw [addLine, if_neg (by rw [h]; exact Bool.false_ne_true)]

theorem addLine_takes (h : isRead code line = true) (ht : b.takes code line = true) :
    addLine code (blocks ++ [b]) line = blocks ++ [b.snoc line] := by
  simp only [addLine, h, if_true, List.getLast?_concat, Option.filter_some, ht,
    List.dropLast_concat]

theorem addLine_begins (h : isRead code line = true)
    (ht : ∀ b ∈ blocks.getLast?, b.takes code line = false) :
    addLine code blocks line = blocks ++ [{ first := line }] := by
  have hnone : blocks.getLast?.filter (·.takes code line) = none := by
    rw [Option.filter_eq_none_iff]
    exact fun b hb => by rw [ht b hb]; exact Bool.false_ne_true
  simp only [addLine, h, if_true, hnone]

/-- A line is passed over, taken by the last block, or begins a block. -/
theorem addLine_cases (code : Option Columns) (blocks : List Block) (line : Line) :
    (isRead code line = false ∧ addLine code blocks line = blocks) ∨
    (isRead code line = true ∧ ∃ done b, blocks = done ++ [b] ∧ b.takes code line = true ∧
      addLine code blocks line = done ++ [b.snoc line]) ∨
    (isRead code line = true ∧ (∀ b ∈ blocks.getLast?, b.takes code line = false) ∧
      addLine code blocks line = blocks ++ [{ first := line }]) := by
  cases hr : isRead code line with
  | false => exact .inl ⟨rfl, addLine_unread hr⟩
  | true =>
    by_cases ht : ∃ b ∈ blocks.getLast?, b.takes code line = true
    · obtain ⟨b, hb, ht⟩ := ht
      obtain ⟨done, rfl⟩ := List.getLast?_eq_some_iff.1 hb
      exact .inr (.inl ⟨rfl, done, b, rfl, ht, addLine_takes hr ht⟩)
    · have hnone : ∀ b ∈ blocks.getLast?, b.takes code line = false := fun b hb =>
        Bool.eq_false_iff.2 fun h => ht ⟨b, hb, h⟩
      exact .inr (.inr ⟨rfl, hnone, addLine_begins hr hnone⟩)

/-! ## Entries of blocks -/

/-- An entry and the entries of the lines behind it. -/
def joinTo (code : Option Columns) (e : Entry) (lines : List Line) : List Entry :=
  if e.isOpen then join code (some e) lines else e :: join code none lines

theorem joinTo_nil (code : Option Columns) (e : Entry) : joinTo code e [] = [e] := by
  unfold joinTo
  split <;> rfl

theorem join_unread (h : isRead code line = false) (pending : Option Entry) (rest : List Line) :
    join code pending (line :: rest) = join code pending rest := by
  simp only [join, ofLine?_eq, h, Bool.false_eq_true, if_false]

theorem join_none_read (h : isRead code line = true) (rest : List Line) :
    join code none (line :: rest) = joinTo code (ofLine code line) rest := by
  have hc : continued? none (ofLine code line) = none := by
    unfold continued?
    split <;> rfl
  simp only [join, ofLine?_eq, h, if_true, hc, Option.toList_none, List.nil_append, joinTo]

theorem joinTo_unread (h : isRead code line = false) (e : Entry) (rest : List Line) :
    joinTo code e (line :: rest) = joinTo code e rest := by
  rw [joinTo, join_unread h, join_unread h, joinTo]

/-- A line that starts no entry is joined to an open one. -/
theorem joinTo_continued {e : Entry} (h : isRead code line = true)
    (hs : startsIn code line = false) (ho : e.isOpen = true) (rest : List Line) :
    joinTo code e (line :: rest) = joinTo code (e.append (ofLine code line)) rest := by
  have hstarts : startsEntry (ofLine code line).text = false := hs
  have hopen := isOpen_append ho (ofLine code line)
  rw [joinTo, if_pos ho, joinTo, hopen]
  simp only [join, ofLine?_eq, h, if_true, continued?, hstarts, Bool.false_eq_true, if_false,
    Option.map_some]
  cases (e.append (ofLine code line)).isTerminated <;> rfl

/-- Any other line makes an entry behind it. -/
theorem joinTo_begun {e : Entry} (h : isRead code line = true)
    (hb : (!startsIn code line && e.isOpen) = false) (rest : List Line) :
    joinTo code e (line :: rest) = e :: joinTo code (ofLine code line) rest := by
  unfold joinTo
  cases ho : e.isOpen with
  | false =>
    rw [if_neg Bool.false_ne_true, join_none_read h]
    rfl
  | true =>
    have hs : startsIn code line = true := by simpa [ho] using hb
    have hstarts : startsEntry (ofLine code line).text = true := hs
    simp only [if_true, join, ofLine?_eq, h, continued?, hstarts, Option.toList_some,
      List.singleton_append]

/-- Lines are joined to the entry of the last block as they are added to the block. -/
theorem map_entry_foldl (code : Option Columns) (lines : List Line) (done : List Block)
    (b : Block) : (lines.foldl (addLine code) (done ++ [b])).map (Block.entry code) =
      done.map (Block.entry code) ++ joinTo code (b.entry code) lines := by
  induction lines generalizing done b with
  | nil => rw [joinTo_nil, List.foldl_nil, List.map_append, List.map_singleton]
  | cons line rest ih =>
    rw [List.foldl_cons]
    cases hr : isRead code line with
    | false => rw [addLine_unread hr, joinTo_unread hr, ih]
    | true =>
      cases ht : b.takes code line with
      | true =>
        obtain ⟨hs, ho⟩ := Bool.and_eq_true_iff.1 ht
        rw [addLine_takes hr ht, ih, Block.entry_snoc,
          joinTo_continued hr (by simpa using hs) ho]
      | false =>
        have hlast : ∀ c ∈ (done ++ [b]).getLast?, c.takes code line = false := by simpa using ht
        rw [addLine_begins hr hlast, ih, joinTo_begun hr ht, List.map_append, List.append_assoc]
        rfl

/-- The entries of some lines are those of their blocks. -/
theorem ofLines_eq (code : Option Columns) (lines : List Line) :
    ofLines code lines = (blocksOf code lines).map (Block.entry code) := by
  rw [ofLines, blocksOf]
  induction lines with
  | nil => rfl
  | cons line rest ih =>
    rw [List.foldl_cons]
    cases hr : isRead code line with
    | false => rw [join_unread hr, addLine_unread hr, ih]
    | true =>
      have hfirst : addLine code [] line = [{ first := line }] := addLine_begins hr (by simp)
      rw [join_none_read hr, hfirst]
      exact (map_entry_foldl code rest [] { first := line }).symm

/-- The last entry of the lines may be continued. -/
def endsOpen (code : Option Columns) (lines : List Line) : Bool :=
  (ofLines code lines).getLast?.any isOpen

/-- One more line is passed over, continues the last entry, or makes a further one. -/
theorem ofLines_concat_cases (code : Option Columns) (lines : List Line) (line : Line) :
    (isRead code line = false ∧ ofLines code (lines ++ [line]) = ofLines code lines) ∨
    (isRead code line = true ∧ startsIn code line = false ∧ ∃ done e,
      ofLines code lines = done ++ [e] ∧ e.isOpen = true ∧
      ofLines code (lines ++ [line]) = done ++ [e.append (ofLine code line)]) ∨
    (isRead code line = true ∧ (startsIn code line = true ∨ endsOpen code lines = false) ∧
      ofLines code (lines ++ [line]) = ofLines code lines ++ [ofLine code line]) := by
  have hconcat : blocksOf code (lines ++ [line]) = addLine code (blocksOf code lines) line := by
    rw [blocksOf, List.foldl_concat, blocksOf]
  rw [endsOpen, ofLines_eq, ofLines_eq, hconcat]
  obtain ⟨hr, he⟩ | ⟨hr, done, b, hb, ht, he⟩ | ⟨hr, hlast, he⟩ :=
    addLine_cases code (blocksOf code lines) line
  · exact .inl ⟨hr, by rw [he]⟩
  · obtain ⟨hs, ho⟩ := Bool.and_eq_true_iff.1 ht
    refine .inr (.inl
      ⟨hr, by simpa using hs, done.map (Block.entry code), b.entry code, ?_, ho, ?_⟩)
    · rw [hb, List.map_append, List.map_singleton]
    · rw [he, List.map_append, List.map_singleton, Block.entry_snoc]
  · refine .inr (.inr ⟨hr, ?_, by rw [he, List.map_append]; rfl⟩)
    cases hs : startsIn code line with
    | true => exact .inl rfl
    | false =>
      refine .inr ?_
      rw [List.getLast?_map, Option.any_map]
      cases hb : (blocksOf code lines).getLast? with
      | none => rfl
      | some b => simpa [Block.takes, hs] using hlast b hb

/-! ## Lines of blocks -/

/-- Adding a line divides the lines up to it. -/
theorem IsDivision.addLine {lines : List Line} (h : IsDivision code lines blocks) (line : Line) :
    IsDivision code (lines ++ [line]) (addLine code blocks line) := by
  obtain ⟨hr, he⟩ | ⟨hr, done, b, rfl, ht, he⟩ | ⟨hr, hlast, he⟩ := addLine_cases code blocks line
  · rw [he]
    refine ⟨?_, h.continues, h.begins⟩
    rw [h.lines_eq, List.filter_append, List.filter_singleton, hr]
    simp
  · rw [he]
    refine ⟨?_, fun c hc => ?_, ?_⟩
    · rw [List.filter_append, ← h.lines_eq, List.filter_singleton, hr]
      simp [Block.lines, Block.snoc]
    · intro before l hl
      rcases List.mem_append.1 hc with hc | hc
      · exact h.continues c (List.mem_append_left _ hc) before l hl
      · obtain rfl := List.mem_singleton.1 hc
        rcases List.prefix_concat_iff.1 hl with heq | hl
        · obtain ⟨rfl, hsingle⟩ := List.append_inj' heq rfl
          obtain rfl := List.singleton_inj.1 hsingle
          exact ht
        · exact h.continues b (by simp) before l hl
    · have hbegins := h.begins
      rw [List.isChain_append] at hbegins ⊢
      obtain ⟨hdone, -, hb⟩ := hbegins
      refine ⟨hdone, .singleton _, fun c hc d hd => ?_⟩
      obtain rfl := Option.some.inj hd
      exact hb c hc b rfl
  · rw [he]
    refine ⟨?_, fun c hc => ?_, ?_⟩
    · rw [List.filter_append, ← h.lines_eq, List.filter_singleton, hr]
      simp [Block.lines]
    · intro before l hl
      rcases List.mem_append.1 hc with hc | hc
      · exact h.continues c hc before l hl
      · obtain rfl := List.mem_singleton.1 hc
        simp at hl
    · rw [List.isChain_append]
      refine ⟨h.begins, .singleton _, fun c hc d hd => ?_⟩
      obtain rfl := Option.some.inj hd
      exact hlast c hc

theorem isDivision_blocksOf (code : Option Columns) (lines : List Line) :
    IsDivision code lines (blocksOf code lines) := by
  induction lines using List.reverseRecOn with
  | nil => exact ⟨rfl, by simp [blocksOf], .nil⟩
  | append_singleton lines line ih =>
    rw [blocksOf, List.foldl_concat]
    exact ih.addLine line

/-- No line that a block would take stands behind it. -/
theorem eq_nil_of_begins {c : Block} {more rest : List Line}
    (hb : (b :: blocks).IsChain fun b c => b.takes code c.first = false)
    (hc : ∀ (before : List Line) (line : Line), before ++ [line] <+: c.later →
      Block.takes code ⟨c.first, before⟩ line = true)
    (hfirst : c.first = b.first) (hlater : c.later = b.later ++ more)
    (hlines : blocks.flatMap Block.lines = more ++ rest) : more = [] := by
  cases more with
  | nil => rfl
  | cons line more =>
    cases blocks with
    | nil => cases hlines
    | cons d blocks =>
      obtain rfl : d.first = line := (List.cons.inj hlines).1
      have ht := hc b.later d.first ⟨more, by rw [hlater, List.append_assoc]; rfl⟩
      rw [hfirst, (List.isChain_cons_cons.1 hb).1] at ht
      cases ht

/-- Lines are divided in one way only. -/
theorem IsDivision.unique {lines : List Line} {blocks' : List Block}
    (h : IsDivision code lines blocks) (h' : IsDivision code lines blocks') : blocks = blocks' := by
  obtain ⟨hl, hc, hb⟩ := h
  obtain ⟨hl', hc', hb'⟩ := h'
  rw [← hl'] at hl
  clear hl'
  induction blocks generalizing blocks' with
  | nil =>
    cases blocks' with
    | nil => rfl
    | cons c blocks' => cases hl
  | cons b blocks ih =>
    cases blocks' with
    | nil => cases hl
    | cons c blocks' =>
      obtain ⟨hfirst, hrest⟩ := List.cons.inj hl
      obtain ⟨hcb, hblocks⟩ := List.forall_mem_cons.1 hc
      obtain ⟨hcc, hblocks'⟩ := List.forall_mem_cons.1 hc'
      have hlater : b.later = c.later ∧
          blocks.flatMap Block.lines = blocks'.flatMap Block.lines := by
        rcases List.append_eq_append_iff.1 hrest with ⟨more, hm, hr⟩ | ⟨more, hm, hr⟩
        · obtain rfl := eq_nil_of_begins hb hcc hfirst.symm hm hr
          exact ⟨by simp [hm], hr⟩
        · obtain rfl := eq_nil_of_begins hb' hcb hfirst hm hr
          exact ⟨by simp [hm], hr.symm⟩
      obtain rfl : b = c := by
        cases b
        cases c
        simp_all
      rw [ih hlater.2 hblocks hb.tail hblocks' hb'.tail]

theorem isDivision_iff {lines : List Line} :
    IsDivision code lines blocks ↔ blocks = blocksOf code lines :=
  ⟨fun h => h.unique (isDivision_blocksOf code lines), fun h => h ▸ isDivision_blocksOf code lines⟩

/-- Lines that start an entry begin their blocks. -/
theorem IsDivision.starts_eq {lines : List Line} (h : IsDivision code lines blocks) :
    (blocks.map Block.first).filter (startsIn code) = lines.filter (startsIn code) := by
  have hblock : ∀ b ∈ blocks,
      b.lines.filter (startsIn code) = [b.first].filter (startsIn code) := by
    intro b hb
    have hlater : b.later.filter (startsIn code) = [] := by
      rw [List.filter_eq_nil_iff]
      intro line hline
      obtain ⟨before, after, hl⟩ := List.append_of_mem hline
      have ht := h.continues b hb before line ⟨after, by rw [hl, List.append_assoc]; rfl⟩
      simp only [Block.takes, Bool.and_eq_true, Bool.not_eq_true'] at ht
      rw [ht.1]
      exact Bool.false_ne_true
    rw [Block.lines, ← List.singleton_append, List.filter_append, hlater, List.append_nil]
  have hread : lines.filter (startsIn code) =
      (lines.filter (isRead code)).filter (startsIn code) := by
    rw [List.filter_filter]
    refine List.filter_congr fun line _ => ?_
    cases hs : startsIn code line with
    | true => rw [isRead_of_startsIn hs]; rfl
    | false => rfl
  rw [hread, ← h.lines_eq, List.map_eq_flatMap, List.filter_flatMap, List.filter_flatMap]
  exact List.flatMap_congr fun b hb => (hblock b hb).symm

/-! ## What entries say of their lines -/

theorem line_entry (code : Option Columns) (b : Block) : (b.entry code).line = b.first.number := by
  have hfold : ∀ (later : List Line) (e : Entry),
      (later.foldl (fun e line => e.append (ofLine code line)) e).line = e.line := by
    intro later
    induction later with
    | nil => exact fun _ => rfl
    | cons line later ih => exact fun e => ih (e.append (ofLine code line))
  exact hfold b.later (ofLine code b.first)

/-- The entry of a block has the words of its lines. -/
theorem words_entry (code : Option Columns) (b : Block) :
    Text.words (b.entry code).text =
      b.lines.flatMap fun line => Text.words (readText code line) := by
  have hspace : Text.isBlank ' ' = true := by decide +kernel
  have hfold : ∀ (later : List Line) (e : Entry),
      Text.words (later.foldl (fun e line => e.append (ofLine code line)) e).text =
        Text.words e.text ++ later.flatMap fun line => Text.words (readText code line) := by
    intro later
    induction later with
    | nil => simp
    | cons line later ih =>
      intro e
      have hword : Text.words (e.append (ofLine code line)).text =
          Text.words e.text ++ Text.words (readText code line) := by
        rw [append, Text.words_append_blank _ hspace, Text.words_trim]
        rfl
      rw [List.foldl_cons, ih, hword, List.flatMap_cons, List.append_assoc]
  rw [Block.entry, hfold, Block.lines, List.flatMap_cons]
  rfl

/-- Lines of which nothing is read have no words. -/
theorem flatMap_words_filter (code : Option Columns) (lines : List Line) :
    ((lines.filter (isRead code)).flatMap fun line => Text.words (readText code line)) =
      lines.flatMap fun line => Text.words (readText code line) := by
  induction lines with
  | nil => rfl
  | cons line lines ih =>
    cases hr : isRead code line with
    | true => rw [List.filter_cons_of_pos hr, List.flatMap_cons, List.flatMap_cons, ih]
    | false =>
      have hblank : Text.words (readText code line) = [] :=
        Text.words_of_allBlank (by simpa [isRead] using hr)
      rw [List.filter_cons_of_neg (by rw [hr]; exact Bool.false_ne_true), List.flatMap_cons, hblank,
        ih, List.nil_append]

/-- No text is lost and none is made up.  There is just one division of the lines into blocks; each
block makes one entry, with the words and the number of its lines, and lines that start an entry
begin blocks. -/
theorem entries_divide_lines (code : Option Columns) (lines : List Line) :
    ((ofLines code lines).flatMap fun e => Text.words e.text) =
        (lines.flatMap fun line => Text.words (readText code line)) ∧
      (∃ blocks, (∀ others, IsDivision code lines others ↔ others = blocks) ∧
        ofLines code lines = blocks.map (Block.entry code) ∧
        (∀ b ∈ blocks, (b.entry code).line = b.first.number) ∧
        (blocks.map Block.first).filter (startsIn code) = lines.filter (startsIn code)) ∧
      ((lines.Pairwise fun a b => a.number < b.number) →
        (ofLines code lines).Pairwise fun d e => d.line < e.line) := by
  have hdivision := isDivision_blocksOf code lines
  refine ⟨?_, ⟨blocksOf code lines, fun _ => isDivision_iff, ofLines_eq code lines,
    fun b _ => line_entry code b, hdivision.starts_eq⟩, fun hnumbers => ?_⟩
  · rw [← flatMap_words_filter, ← hdivision.lines_eq, ofLines_eq, List.flatMap_map,
      List.flatMap_assoc]
    exact List.flatMap_congr fun b _ => words_entry code b
  · have hsublist := lines_ofLines_sublist code lines
    rw [← List.pairwise_map (f := Line.number) (R := (· < ·))] at hnumbers
    exact List.pairwise_map.1 (hnumbers.sublist hsublist)

end

/-- Five entries of lines with a code in front of most: one of two lines with a blank line between
them, one line of other text behind its period, and one that ends without a period. -/
theorem entries_divide_lines_codes :
    let code : Option Columns := some ⟨0, 2⟩
    let lines := (Source.ofLines (["HD01 A.", "HD   05 B PIC", "", "X(4). *> text", "NOTE",
      "HD   05 C", "HD   05 D PIC 9."].map String.toList)).lines
    (lines.Pairwise fun a b => a.number < b.number) ∧
      ((ofLines code lines).Pairwise fun d e => d.line < e.line) ∧
      (ofLines code lines).map (·.line) = [1, 2, 5, 6, 7] ∧
      (ofLines code lines).map (·.text) = ["  01 A.", "     05 B PIC X(4).", "NOTE",
        "     05 C", "     05 D PIC 9."].map String.toList := by
  intro code lines
  have hnumbers : lines.Pairwise fun a b => a.number < b.number := Source.pairwise_lines _
  obtain ⟨-, -, hlines⟩ := entries_divide_lines code lines
  exact ⟨hnumbers, hlines hnumbers, by decide +kernel, by decide +kernel⟩

end DataDivision.Entry
