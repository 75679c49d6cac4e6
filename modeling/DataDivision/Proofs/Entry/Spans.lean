import DataDivision.Proofs.Checked.Text
import DataDivision.Proofs.Entry.Blocks
import DataDivision.Proofs.Entry.Positions
import Mathlib.Data.List.Flatten
import Mathlib.Data.List.Forall2

/-!
The bytes of entries.

An entry has the bytes of the source from where the kept part of its first line starts to where that
of its last line ends (`spans_of_entries`).  Lines are measured as they are read, with the record
type code blanked where it is: a blanked character that takes several bytes counts for one, and
moves what stands behind it in its line towards the front (`lostBytes`).
-/

namespace DataDivision

/-- The byte of the source at which a character of the line starts. -/
def Line.byteAt (line : Line) (column : Nat) : Nat :=
  line.span.start + Text.byteLength (line.text.take column)

/-- The offset lies between two characters of the text, or at one of its ends. -/
def Text.isBoundary (cs : List Char) (offset : Nat) : Bool := (Checked.sliceTo offset cs).isSome

/-- Characters taken from the front of a text end at a boundary. -/
theorem Text.isBoundary_of_prefix {front cs : List Char} (h : front <+: cs) :
    Text.isBoundary cs (Text.byteLength front) = true := by
  obtain ⟨back, rfl⟩ := h
  rw [isBoundary, Checked.sliceTo_append]
  rfl

theorem Text.byteLength_eq_sum (cs : List Char) : byteLength cs = (cs.map Char.utf8Size).sum := by
  induction cs with
  | nil => rfl
  | cons c cs ih => rw [byteLength, List.map_cons, List.sum_cons, ih]

namespace Source

/-! ## Lines in the source -/

theorem exists_split_of_mem_place {number offset : Nat} {texts : List (List Char)} {line : Line}
    (h : line ∈ place number offset texts) :
    ∃ front back, ['\n'].intercalate texts = front ++ line.text ++ back ∧
      line.span.start = offset + Text.byteLength front ∧
      line.span.stop = line.span.start + Text.byteLength line.text := by
  induction texts generalizing number offset with
  | nil => cases h
  | cons text rest ih =>
    have hfeed : ('\n').utf8Size = 1 := by decide
    rcases List.mem_cons.1 h with rfl | h
    · refine ⟨[], (['\n'].intercalate (text :: rest)).drop text.length, ?_, rfl, by simp [Span.of]⟩
      cases rest with
      | nil => simp
      | cons next more => simp
    · obtain ⟨front, back, htext, hstart, hstop⟩ := ih h
      cases rest with
      | nil => cases h
      | cons next more =>
        refine ⟨text ++ '\n' :: front, back, ?_, ?_, hstop⟩
        · rw [List.intercalate_cons_cons, htext]
          simp
        · rw [hstart, Text.byteLength_append, Text.byteLength, hfeed]
          omega

variable {texts : List (List Char)} {line : Line}

/-- A line of a source takes the bytes of its text. -/
theorem stop_of_mem_lines (h : line ∈ (ofLines texts).lines) :
    line.span.stop = line.span.start + Text.byteLength line.text := by
  obtain ⟨-, -, -, -, hstop⟩ := exists_split_of_mem_place h
  exact hstop

theorem isBoundary_byteAt (h : line ∈ (ofLines texts).lines) (column : Nat) :
    Text.isBoundary (ofLines texts).text (line.byteAt column) = true := by
  obtain ⟨front, back, htext, hstart, -⟩ := exists_split_of_mem_place h
  have hlength : line.byteAt column = Text.byteLength (front ++ line.text.take column) := by
    rw [Line.byteAt, hstart, Text.byteLength_append, Nat.zero_add]
  rw [hlength]
  refine Text.isBoundary_of_prefix ⟨line.text.drop column ++ back, ?_⟩
  rw [List.append_assoc, ← List.append_assoc (line.text.take column), List.take_append_drop,
    ← List.append_assoc]
  exact htext.symm

theorem stop_le_of_mem_lines (h : line ∈ (ofLines texts).lines) :
    line.span.stop ≤ Text.byteLength (ofLines texts).text := by
  obtain ⟨front, back, htext, hstart, hstop⟩ := exists_split_of_mem_place h
  have hlength : Text.byteLength (ofLines texts).text =
      Text.byteLength front + Text.byteLength line.text + Text.byteLength back := by
    rw [← Text.byteLength_append, ← Text.byteLength_append]
    exact congrArg _ htext
  omega

end Source

namespace Entry

/-! ## The kept part of a line -/

/-- The character of the line at which its kept part starts. -/
def keptFrom (code : Option Columns) (line : Line) : Nat := marginOf (unmask code line.text)

/-- The character behind the kept part. -/
def keptTo (code : Option Columns) (line : Line) : Nat :=
  keptFrom code line + (readText code line).length

/-- The bytes by which the line, as it is read, is shorter in front of a column. -/
def lostBytes (code : Option Columns) (line : Line) (column : Nat) : Nat :=
  (((line.text.take column).zip (unmask code line.text)).map fun p =>
    p.1.utf8Size - p.2.utf8Size).sum

/-- Each character of the line is read as one of as many bytes. -/
def KeepsWidths (code : Option Columns) (line : Line) : Prop :=
  (unmask code line.text).map Char.utf8Size = line.text.map Char.utf8Size

instance (code : Option Columns) (line : Line) : Decidable (KeepsWidths code line) :=
  inferInstanceAs (Decidable (_ = _))

def Block.last (b : Block) : Line := b.later.getLastD b.first

/-- The entry of the block has bytes of the source, from the start of the kept part of its first
line to the end of that of its last, less the bytes that these lines lose before.  The kept parts
start and end between characters. -/
structure Block.PointsInto (code : Option Columns) (source : Source) (b : Block) : Prop where
  stop_le : (b.entry code).span.stop ≤ Text.byteLength source.text
  start_add : (b.entry code).span.start + lostBytes code b.first (keptFrom code b.first) =
    b.first.byteAt (keptFrom code b.first)
  stop_add : (b.entry code).span.stop + lostBytes code b.last (keptTo code b.last) =
    b.last.byteAt (keptTo code b.last)
  isBoundary_from :
    Text.isBoundary source.text (b.first.byteAt (keptFrom code b.first)) = true
  isBoundary_to : Text.isBoundary source.text (b.last.byteAt (keptTo code b.last)) = true

section

variable {code : Option Columns} {line : Line}

theorem kept_prefix_drop (text : List Char) : kept text <+: text.drop (marginOf text) := by
  obtain ⟨blanks, htrim, -⟩ :=
    Text.trimEnd_append_blanks (beforeComment (text.drop (marginOf text)))
  have hkept : kept text <+: beforeComment (text.drop (marginOf text)) := ⟨blanks, htrim.symm⟩
  obtain ⟨-, hcomment⟩ | ⟨-, hcomment⟩ := Checked.commentOffset?_cases (text.drop (marginOf text))
  · rwa [hcomment] at hkept
  · exact hkept.trans hcomment

/-- The characters of a line up to the end of its kept part. -/
theorem take_kept (text : List Char) :
    text.take (marginOf text + (kept text).length) = text.take (marginOf text) ++ kept text := by
  rw [List.take_add, ← List.prefix_iff_eq_take.1 (kept_prefix_drop text)]

theorem forall₂_mask (columns : Columns) (text : List Char) :
    List.Forall₂ (fun c d : Char => d.utf8Size ≤ c.utf8Size) text (mask columns text) := by
  rw [mask, List.forall₂_iff_get]
  refine ⟨by simp, fun i hi _ => ?_⟩
  simp only [List.get_eq_getElem, List.getElem_mapIdx]
  split
  · exact (text[i]).utf8Size_pos
  · exact Nat.le_refl _

/-- No character is read as one of more bytes. -/
theorem forall₂_unmask (code : Option Columns) (text : List Char) :
    List.Forall₂ (fun c d : Char => d.utf8Size ≤ c.utf8Size) text (unmask code text) := by
  obtain h | ⟨columns, -, h⟩ := unmask_cases code text
  · rw [h, List.forall₂_same]
    exact fun c _ => Nat.le_refl _
  · rw [h]
    exact forall₂_mask columns text

theorem byteLength_take_add {cs ds : List Char}
    (h : List.Forall₂ (fun c d : Char => d.utf8Size ≤ c.utf8Size) cs ds) (n : Nat) :
    Text.byteLength (ds.take n) +
        (((cs.take n).zip ds).map fun p => p.1.utf8Size - p.2.utf8Size).sum =
      Text.byteLength (cs.take n) := by
  induction h generalizing n with
  | nil => simp [Text.byteLength]
  | cons hle _ ih =>
    cases n with
    | zero => simp [Text.byteLength]
    | succ n =>
      have hrest := ih n
      simp only [List.take_succ_cons, List.zip_cons_cons, List.map_cons, List.sum_cons,
        Text.byteLength]
      omega

/-- What a line loses in front of a column is what it is shorter there. -/
theorem byteAt_eq (code : Option Columns) (line : Line) (column : Nat) :
    line.byteAt column = line.span.start +
      Text.byteLength ((unmask code line.text).take column) + lostBytes code line column := by
  rw [Line.byteAt, ← byteLength_take_add (forall₂_unmask code line.text), Nat.add_assoc, lostBytes]

theorem lostBytes_eq_zero (h : KeepsWidths code line) (column : Nat) :
    lostBytes code line column = 0 := by
  have hlength : Text.byteLength ((unmask code line.text).take column) =
      Text.byteLength (line.text.take column) := by
    rw [Text.byteLength_eq_sum, Text.byteLength_eq_sum, List.map_take, List.map_take, h]
  have hbyte := byteAt_eq code line column
  rw [hlength, ← Line.byteAt] at hbyte
  omega

/-- The bytes of a single line: from its kept part as the line is read. -/
theorem span_ofLine (h : line.span.stop = line.span.start + Text.byteLength line.text) :
    (ofLine code line).span.start + lostBytes code line (keptFrom code line) =
        line.byteAt (keptFrom code line) ∧
      (ofLine code line).span.stop + lostBytes code line (keptTo code line) =
        line.byteAt (keptTo code line) := by
  have hfrom := byteAt_eq code line (keptFrom code line)
  have hto := byteAt_eq code line (keptTo code line)
  have hkept : Text.byteLength ((unmask code line.text).take (keptTo code line)) =
      keptOffset (unmask code line.text) + Text.byteLength (readText code line) := by
    rw [keptTo, keptFrom, readText, take_kept, Text.byteLength_append, keptOffset]
  have hinside : line.byteAt (keptTo code line) ≤ line.span.stop := by
    have := Text.byteLength_mono (List.take_sublist (keptTo code line) line.text)
    rw [Line.byteAt]
    omega
  have hoffset : Text.byteLength ((unmask code line.text).take (keptFrom code line)) =
      keptOffset (unmask code line.text) := rfl
  simp only [ofLine, Span.slice, Span.of]
  omega

end

/-! ## Entries -/

section

variable {code : Option Columns} {b : Block}

theorem Block.last_snoc (first line : Line) (later : List Line) :
    Block.last ⟨first, later ++ [line]⟩ = line := by
  rw [last, List.getLastD_concat]

theorem Block.last_mem (b : Block) : b.last ∈ b.lines := by
  obtain ⟨first, later⟩ := b
  induction later using List.reverseRecOn with
  | nil => exact List.mem_cons_self
  | append_singleton later line _ =>
    rw [last_snoc]
    simp [lines]

/-- The entry of a block lies from the start of its first line to the end of its last one. -/
theorem span_entry (h : b.lines.Pairwise fun a c => a.span.stop ≤ c.span.start) :
    (b.entry code).span.start = (ofLine code b.first).span.start ∧
      (b.entry code).span.stop = (ofLine code b.last).span.stop := by
  obtain ⟨first, later⟩ := b
  induction later using List.reverseRecOn with
  | nil => exact ⟨rfl, rfl⟩
  | append_singleton later line ih =>
    have hlines : (Block.mk first (later ++ [line])).lines = Block.lines ⟨first, later⟩ ++ [line] :=
      rfl
    rw [hlines, List.pairwise_append] at h
    obtain ⟨hfront, -, hline⟩ := h
    obtain ⟨hstart, hstop⟩ := ih hfront
    have hbefore := hline _ (Block.last_mem ⟨first, later⟩) line (List.mem_singleton.2 rfl)
    have hin : ∀ l : Line, l.span.start ≤ (ofLine code l).span.start ∧
        (ofLine code l).span.stop ≤ l.span.stop := fun l =>
      ⟨l.span.le_slice_start _ _, l.span.slice_stop_le _ _⟩
    have hentry : (Block.mk first (later ++ [line])).entry code =
        (Block.entry code ⟨first, later⟩).append (ofLine code line) :=
      Block.entry_snoc code ⟨first, later⟩ line
    have hlast := (hin (Block.last ⟨first, later⟩)).2
    have hnext := (hin line).1
    have hsize := (Block.entry code ⟨first, later⟩).span.start_le_stop
    have hsize' := (ofLine code line).span.start_le_stop
    rw [hentry, Block.last_snoc]
    refine ⟨?_, ?_⟩
    · rw [start_append (by omega), hstart]
    · simp only [append, Span.union]
      omega

/-- The lines of a block are among those divided, in their order. -/
theorem IsDivision.lines_sublist {lines : List Line} {blocks : List Block}
    (h : IsDivision code lines blocks) (hb : b ∈ blocks) : b.lines.Sublist lines := by
  have hflat : b.lines.Sublist (blocks.flatMap Block.lines) := by
    simpa using (List.singleton_sublist.2 hb).flatMap Block.lines
  rw [h.lines_eq] at hflat
  exact hflat.trans List.filter_sublist

end

/-- Entries of lines of a source point at what was read of their lines: they start exactly where the
first line is read from if its characters are read as ones of as many bytes, and end exactly where
the last one is read to if its characters are. -/
theorem spans_of_entries (texts : List (List Char)) (code : Option Columns) {lines : List Line}
    (h : lines.Sublist (Source.ofLines texts).lines) :
    ofLines code lines = (blocksOf code lines).map (Block.entry code) ∧
      (∀ b ∈ blocksOf code lines, b.PointsInto code (Source.ofLines texts)) ∧
      ∀ b ∈ blocksOf code lines,
        (KeepsWidths code b.first →
          (b.entry code).span.start = b.first.byteAt (keptFrom code b.first)) ∧
        (KeepsWidths code b.last →
          (b.entry code).span.stop = b.last.byteAt (keptTo code b.last)) := by
  have hpoints : ∀ b ∈ blocksOf code lines, b.PointsInto code (Source.ofLines texts) := by
    intro b hb
    have hsublist := ((isDivision_blocksOf code lines).lines_sublist hb).trans h
    have hfirst := hsublist.subset (List.mem_cons_self : b.first ∈ b.lines)
    have hlast := hsublist.subset b.last_mem
    have hordered :=
      (Source.pairwise_spans_place 1 0 (texts.map Text.dropBreaks)).1.sublist hsublist
    obtain ⟨hstart, hstop⟩ : (b.entry code).span.start = (ofLine code b.first).span.start ∧
        (b.entry code).span.stop = (ofLine code b.last).span.stop := span_entry hordered
    constructor
    · rw [hstop]
      exact Nat.le_trans (b.last.span.slice_stop_le _ _) (Source.stop_le_of_mem_lines hlast)
    · rw [hstart]
      exact (span_ofLine (Source.stop_of_mem_lines hfirst)).1
    · rw [hstop]
      exact (span_ofLine (Source.stop_of_mem_lines hlast)).2
    · exact Source.isBoundary_byteAt hfirst _
    · exact Source.isBoundary_byteAt hlast _
  refine ⟨ofLines_eq code lines, hpoints, fun b hb => ⟨fun hw => ?_, fun hw => ?_⟩⟩
  · rw [← (hpoints b hb).start_add, lostBytes_eq_zero hw, Nat.add_zero]
  · rw [← (hpoints b hb).stop_add, lostBytes_eq_zero hw, Nat.add_zero]

/-- An entry behind a sequence area, a line of comment, and an entry of two lines of which the first
is read with its code blanked. -/
theorem spans_of_entries_continued :
    let code : Option Columns := some ⟨0, 2⟩
    let texts := ["000100 01 É.   *> text", "* É", "HD   05 B PIC",
      "     X(4).  "].map String.toList
    let source := Source.ofLines texts
    let blocks := blocksOf code source.content
    source.content.Sublist source.lines ∧
      (∀ b ∈ blocks, KeepsWidths code b.first ∧ KeepsWidths code b.last) ∧
      ofLines code source.content = blocks.map (Block.entry code) ∧
      (∀ b ∈ blocks, (b.entry code).span.start = b.first.byteAt (keptFrom code b.first) ∧
        (b.entry code).span.stop = b.last.byteAt (keptTo code b.last)) ∧
      (ofLines code source.content).map (fun e => (e.span.start, e.span.stop)) =
        [(7, 13), (29, 53)] := by
  intro code texts source blocks
  have hcontent : source.content.Sublist source.lines := List.filter_sublist
  have hwidths : ∀ b ∈ blocks, KeepsWidths code b.first ∧ KeepsWidths code b.last := by
    decide +kernel
  obtain ⟨hentries, -, hexact⟩ := spans_of_entries texts code hcontent
  refine ⟨hcontent, hwidths, hentries, fun b hb => ?_, by decide +kernel⟩
  exact ⟨(hexact b hb).1 (hwidths b hb).1, (hexact b hb).2 (hwidths b hb).2⟩

/-- A code of one character and two bytes: the entry ends one byte before its line does, inside the
last character. -/
theorem span_ends_inside_character :
    let code : Option Columns := some ⟨0, 1⟩
    let source := Source.ofLines ["É01 A É".toList]
    Text.byteLength source.text = 9 ∧
      source.lines.map (fun line => line.byteAt (keptTo code line)) = [9] ∧
      (ofLines code source.lines).map (fun e => (e.span.start, e.span.stop)) = [(0, 8)] ∧
      Text.isBoundary source.text 8 = false := by
  decide +kernel

end Entry

end DataDivision
