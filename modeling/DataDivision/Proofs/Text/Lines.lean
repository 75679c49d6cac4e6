import DataDivision.Text.Line
import Mathlib.Algebra.Ring.Nat

/-!
Lines in a text.

A text is its pieces joined again with line feeds (`intercalate_pieces`), and the number of feeds
before a byte is the number of lines before the one that it belongs to (`feedsBefore_lineStart`).
Physical lines are these pieces but for carriage returns at their ends.
-/

namespace DataDivision.Text

/-! ## Lengths -/

theorem byteLength_append (cs ds : List Char) :
    byteLength (cs ++ ds) = byteLength cs + byteLength ds := by
  induction cs with
  | nil => simp [byteLength]
  | cons c cs ih =>
    rw [List.cons_append, byteLength, byteLength, ih]
    omega

theorem byteLength_mono {cs ds : List Char} (h : cs.Sublist ds) :
    byteLength cs ≤ byteLength ds := by
  induction h with
  | slnil => exact Nat.le_refl _
  | cons c _ ih =>
    rw [byteLength]
    omega
  | cons_cons c _ ih =>
    rw [byteLength, byteLength]
    omega

/-! ## Pieces -/

theorem pieces_ne_nil (separator : Char) (cs : List Char) : pieces separator cs ≠ [] := by
  cases cs with
  | nil => simp [pieces]
  | cons c cs =>
    rw [pieces]
    split
    · simp
    · split <;> simp

/-- The pieces of a text make up the text. -/
theorem intercalate_pieces (separator : Char) (cs : List Char) :
    [separator].intercalate (pieces separator cs) = cs := by
  induction cs with
  | nil => rfl
  | cons c cs ih =>
    rw [pieces]
    split
    · rename_i hc
      subst hc
      cases hp : pieces c cs with
      | nil => exact absurd hp (pieces_ne_nil c cs)
      | cons piece rest =>
        rw [List.intercalate_cons_cons, ← hp, ih]
        rfl
    · cases hp : pieces separator cs with
      | nil => exact absurd hp (pieces_ne_nil separator cs)
      | cons piece rest =>
        rw [hp] at ih
        dsimp only
        cases rest with
        | nil => simpa using ih
        | cons next more =>
          rw [List.intercalate_cons_cons] at ih ⊢
          simpa using ih

theorem not_mem_of_mem_pieces {separator : Char} {cs piece : List Char}
    (h : piece ∈ pieces separator cs) : separator ∉ piece := by
  induction cs generalizing piece with
  | nil =>
    rw [pieces, List.mem_singleton] at h
    simp [h]
  | cons c cs ih =>
    rw [pieces] at h
    split at h
    · rcases List.mem_cons.1 h with rfl | h
      · simp
      · exact ih h
    · rename_i hc
      cases hp : pieces separator cs with
      | nil => exact absurd hp (pieces_ne_nil separator cs)
      | cons first rest =>
        rw [hp] at h ih
        rcases List.mem_cons.1 h with rfl | h
        · simpa [Ne.symm hc] using ih List.mem_cons_self
        · exact ih (List.mem_cons_of_mem _ h)

/-- Behind every piece but the last one there is the separator. -/
theorem infix_intercalate {separator : Char} {ps : List (List Char)} {piece : List Char}
    (h : piece ∈ ps.dropLast) : (piece ++ [separator]) <:+: [separator].intercalate ps := by
  induction ps with
  | nil => cases h
  | cons first rest ih =>
    cases rest with
    | nil => cases h
    | cons next more =>
      rw [List.intercalate_cons_cons]
      rcases List.mem_cons.1 h with rfl | h
      · exact (List.prefix_append _ _).isInfix
      · exact (ih h).trans (List.suffix_append _ _).isInfix

/-! ## Feeds -/

/-- The byte at which a line starts, by its index, when lines are joined with feeds. -/
def lineStart (lines : List (List Char)) (i : Nat) : Nat :=
  ((lines.take i).map fun line => byteLength line + 1).sum

theorem lineStart_cons_succ (line : List Char) (rest : List (List Char)) (i : Nat) :
    lineStart (line :: rest) (i + 1) = byteLength line + 1 + lineStart rest i := by
  simp [lineStart]

theorem feedsBefore_mono {m n : Nat} (h : m ≤ n) (cs : List Char) :
    feedsBefore m cs ≤ feedsBefore n cs := by
  induction cs generalizing m n with
  | nil => simp [feedsBefore]
  | cons c cs ih =>
    rw [feedsBefore, feedsBefore]
    by_cases hm : m < c.utf8Size
    · rw [if_pos hm]
      exact Nat.zero_le _
    · rw [if_neg hm, if_neg (show ¬ n < c.utf8Size by omega)]
      exact Nat.add_le_add_left (ih (by omega)) _

theorem feedsBefore_zero (cs : List Char) : feedsBefore 0 cs = 0 := by
  cases cs with
  | nil => rfl
  | cons c cs => rw [feedsBefore, if_pos (Char.utf8Size_pos c)]

/-- Inside a line no feed is counted. -/
theorem feedsBefore_append_of_le {line : List Char} (hl : '\n' ∉ line) (rest : List Char) {n : Nat}
    (h : n ≤ byteLength line) : feedsBefore n (line ++ rest) = 0 := by
  induction line generalizing n with
  | nil =>
    obtain rfl : n = 0 := by simpa [byteLength] using h
    exact feedsBefore_zero rest
  | cons c line ih =>
    rw [List.mem_cons, not_or] at hl
    rw [byteLength] at h
    rw [List.cons_append, feedsBefore]
    split
    · rfl
    · rw [if_neg (Ne.symm hl.1), ih hl.2 (by omega)]

/-- Behind a line its feed is counted. -/
theorem feedsBefore_append_feed {line : List Char} (hl : '\n' ∉ line) (rest : List Char) (n : Nat) :
    feedsBefore (byteLength line + 1 + n) (line ++ '\n' :: rest) = feedsBefore n rest + 1 := by
  induction line with
  | nil =>
    have hsize : '\n'.utf8Size = 1 := rfl
    rw [byteLength, List.nil_append, feedsBefore, hsize, if_neg (by omega), if_pos rfl,
      show 0 + 1 + n - 1 = n by omega, Nat.add_comm]
  | cons c line ih =>
    rw [List.mem_cons, not_or] at hl
    rw [byteLength, List.cons_append, feedsBefore, if_neg (by omega), if_neg (Ne.symm hl.1),
      show c.utf8Size + byteLength line + 1 + n - c.utf8Size = byteLength line + 1 + n by omega,
      ih hl.2, Nat.zero_add]

/-- The feeds before a byte of a line are as many as the lines before it. -/
theorem feedsBefore_lineStart {lines : List (List Char)} (h : ∀ line ∈ lines, '\n' ∉ line)
    {i d : Nat} {line : List Char} (hi : lines[i]? = some line) (hd : d ≤ byteLength line) :
    feedsBefore (lineStart lines i + d) (['\n'].intercalate lines) = i := by
  induction lines generalizing i with
  | nil => cases hi
  | cons first rest ih =>
    have hfirst := h first List.mem_cons_self
    cases rest with
    | nil =>
      obtain ⟨rfl, rfl⟩ : i = 0 ∧ first = line := by
        cases i with
        | zero => exact ⟨rfl, by simpa using hi⟩
        | succ i => simp at hi
      have hz := feedsBefore_append_of_le hfirst [] hd
      simpa [lineStart] using hz
    | cons next more =>
      rw [List.intercalate_cons_cons, List.append_assoc, List.singleton_append]
      cases i with
      | zero =>
        obtain rfl : first = line := by simpa using hi
        simpa [lineStart] using feedsBefore_append_of_le hfirst
          ('\n' :: ['\n'].intercalate (next :: more)) hd
      | succ i =>
        rw [lineStart_cons_succ, Nat.add_assoc, feedsBefore_append_feed hfirst,
          ih (fun line hm => h line (List.mem_cons_of_mem _ hm)) (by simpa using hi)]

/-! ## Physical lines -/

theorem lineStart_succ (lines : List (List Char)) (i : Nat) :
    lineStart lines (i + 1) =
      lineStart lines i + (lines[i]?.map fun line => byteLength line + 1).getD 0 := by
  rw [lineStart, List.take_add_one, List.map_append, List.sum_append, lineStart]
  cases lines[i]? <;> simp

/-- Lines that are no longer than others do not start behind them. -/
theorem lineStart_le {lines lines' : List (List Char)}
    (h : ∀ (i : Nat) (line : List Char), lines[i]? = some line →
      ∃ line', lines'[i]? = some line' ∧ byteLength line ≤ byteLength line') (i : Nat) :
    lineStart lines i ≤ lineStart lines' i := by
  induction i with
  | zero => simp [lineStart]
  | succ i ih =>
    rw [lineStart_succ, lineStart_succ]
    cases hi : lines[i]? with
    | none => simpa using Nat.le_trans ih (Nat.le_add_right _ _)
    | some line =>
      obtain ⟨line', hi', hle⟩ := h i line hi
      rw [hi']
      simp only [Option.map_some, Option.getD_some]
      omega

theorem dropReturn_sublist (cs : List Char) : (dropReturn cs).Sublist cs := by
  induction cs using dropReturn.induct with
  | case1 => exact .refl _
  | case2 => exact List.nil_sublist _
  | case3 c cs hc ih =>
    rw [dropReturn]
    · exact ih.cons_cons c
    · exact hc

theorem dropBreaks_sublist (cs : List Char) : (dropBreaks cs).Sublist cs := by
  induction cs with
  | nil => exact .refl _
  | cons c cs ih =>
    rw [dropBreaks]
    split
    · split
      · exact List.nil_sublist _
      · exact (List.nil_sublist cs).cons_cons c
    · exact ih.cons_cons c

theorem dropReturn_eq_self {cs : List Char} (h : cs.getLast? ≠ some '\r') : dropReturn cs = cs := by
  induction cs using dropReturn.induct with
  | case1 => rfl
  | case2 => simp at h
  | case3 c cs hc ih =>
    rw [dropReturn]
    · cases cs with
      | nil => rfl
      | cons d ds => rw [ih (by rwa [List.getLast?_cons_cons] at h)]
    · exact hc

theorem dropBreaks_eq_self {cs : List Char} (hf : '\n' ∉ cs) (h : cs.getLast? ≠ some '\r') :
    dropBreaks cs = cs := by
  induction cs with
  | nil => rfl
  | cons c cs ih =>
    rw [List.mem_cons, not_or] at hf
    cases cs with
    | nil =>
      have hc : ¬(c = '\r' ∨ c = '\n') := by
        rintro (rfl | rfl)
        · exact h rfl
        · exact hf.1 rfl
      simp [dropBreaks, hc]
    | cons d ds =>
      rw [dropBreaks, ih hf.2 (by rwa [List.getLast?_cons_cons] at h)]

/-- The text of each physical line, without breaks at its end. -/
def keptLines (cs : List Char) : List (List Char) := (physicalLines cs).map dropBreaks

/-- A physical line is the piece at its index, perhaps without its end. -/
theorem getElem?_keptLines {cs line : List Char} {i : Nat} (h : (keptLines cs)[i]? = some line) :
    ∃ piece, (pieces '\n' cs)[i]? = some piece ∧ line.Sublist piece := by
  have hpieces : ∃ piece line', (pieces '\n' cs)[i]? = some piece ∧ line'.Sublist piece ∧
      dropBreaks line' = line := by
    rw [keptLines, List.getElem?_map, Option.map_eq_some_iff] at h
    obtain ⟨line', hl, hd⟩ := h
    rw [physicalLines, List.getElem?_append] at hl
    split at hl
    · rw [List.getElem?_map, Option.map_eq_some_iff] at hl
      obtain ⟨piece, hp, rfl⟩ := hl
      rw [List.getElem?_dropLast] at hp
      split at hp
      · exact ⟨piece, _, hp, dropReturn_sublist piece, hd⟩
      · cases hp
    · rename_i hlen
      rw [List.length_map, List.length_dropLast, Nat.not_lt] at hlen
      have hmem := List.mem_of_getElem? hl
      rw [List.mem_filter, Option.mem_toList] at hmem
      have hlt := (List.getElem?_eq_some_iff.1 hl).1
      have hone : ((pieces '\n' cs).getLast?.toList.filter fun line => !line.isEmpty).length ≤ 1 :=
        Nat.le_trans (List.length_filter_le _ _) (by cases (pieces '\n' cs).getLast? <;> simp)
      rw [List.length_map, List.length_dropLast] at hlt
      obtain rfl : i = (pieces '\n' cs).length - 1 := by omega
      exact ⟨line', line', by rw [← List.getLast?_eq_getElem?, hmem.1], .refl _, hd⟩
  obtain ⟨piece, line', hp, hs, rfl⟩ := hpieces
  exact ⟨piece, hp, (dropBreaks_sublist line').trans hs⟩

/-- Without returns before feeds, the lines before a physical line are pieces as they are. -/
theorem take_keptLines {cs : List Char} (h : ¬ ['\r', '\n'] <:+: cs) {i : Nat}
    (hi : i < (keptLines cs).length) : (keptLines cs).take i = (pieces '\n' cs).take i := by
  have hpiece : ∀ piece ∈ (pieces '\n' cs).dropLast, dropBreaks (dropReturn piece) = piece := by
    intro piece hp
    have hlast : piece.getLast? ≠ some '\r' := by
      intro hr
      obtain ⟨front, rfl⟩ := List.getLast?_eq_some_iff.1 hr
      have hin : _ <:+: ['\n'].intercalate (pieces '\n' cs) := infix_intercalate hp
      rw [intercalate_pieces, List.append_assoc] at hin
      exact h ((List.suffix_append front _).isInfix.trans hin)
    rw [dropReturn_eq_self hlast,
      dropBreaks_eq_self (not_mem_of_mem_pieces ((List.dropLast_sublist _).subset hp)) hlast]
  have hkept : keptLines cs = (pieces '\n' cs).dropLast ++
      ((pieces '\n' cs).getLast?.toList.filter fun line => !line.isEmpty).map dropBreaks := by
    rw [keptLines, physicalLines, List.map_append, List.map_map]
    congr 1
    conv => rhs; rw [← List.map_id (pieces '\n' cs).dropLast]
    exact List.map_congr_left hpiece
  obtain ⟨piece, hp, -⟩ := getElem?_keptLines (List.getElem?_eq_getElem hi)
  have hlt := (List.getElem?_eq_some_iff.1 hp).1
  have hle : i ≤ (pieces '\n' cs).dropLast.length := by
    rw [List.length_dropLast]
    omega
  rw [hkept, List.take_append_of_le_length hle, List.dropLast_eq_take, List.take_take,
    Nat.min_eq_left (by rwa [List.length_dropLast] at hle)]

/-- The feeds before a byte of a physical line, by its place among the lines as they are kept, are
at most as many as the lines before it; and just as many if no return stands before a feed. -/
theorem feedsBefore_keptLines {cs line : List Char} {i d : Nat}
    (hi : (keptLines cs)[i]? = some line) (hd : d ≤ byteLength line) :
    feedsBefore (lineStart (keptLines cs) i + d) cs ≤ i ∧
      (¬ ['\r', '\n'] <:+: cs → feedsBefore (lineStart (keptLines cs) i + d) cs = i) := by
  obtain ⟨piece, hp, hs⟩ := getElem?_keptLines hi
  have hcount : feedsBefore (lineStart (pieces '\n' cs) i + d) cs = i := by
    have hf := feedsBefore_lineStart (fun _ => not_mem_of_mem_pieces) hp
      (Nat.le_trans hd (byteLength_mono hs))
    rwa [intercalate_pieces] at hf
  constructor
  · have hle : lineStart (keptLines cs) i ≤ lineStart (pieces '\n' cs) i := by
      refine lineStart_le (fun j l hj => ?_) i
      obtain ⟨p, hp, hs⟩ := getElem?_keptLines hj
      exact ⟨p, hp, byteLength_mono hs⟩
    exact Nat.le_trans (feedsBefore_mono (Nat.add_le_add_right hle d) cs) (Nat.le_of_eq hcount)
  · intro hn
    have heq : lineStart (keptLines cs) i = lineStart (pieces '\n' cs) i := by
      rw [lineStart, lineStart, take_keptLines hn (List.getElem?_eq_some_iff.1 hi).1]
    rwa [heq]

end DataDivision.Text
