import DataDivision.Proofs.Entry.Blocks
import DataDivision.Proofs.Entry.PassedOver
import DataDivision.Proofs.Record.Relocation
import DataDivision.Proofs.Rules.Defaults

/-!
Record type codes in front of entries.

A line that starts an entry behind its record type code is read with the code blanked; any other
line is read as it is.  So the code in front of an entry never matters.  On a line that continues an
entry a code is read with the clauses, which does no harm where it stands between clauses and is no
word of one (`Entry.HarmlessCodes`): then the record is the one that the lines make with all codes
blanked (`codes_stay_outside`).  Where a clause waits for its operand, it does harm
(`code_within_picture`).
-/

namespace DataDivision

namespace Entry

/-! ## Blanked columns -/

theorem mask_mask (columns : Columns) (text : List Char) :
    mask columns (mask columns text) = mask columns text := by
  rw [mask, mask, List.mapIdx_mapIdx]
  congr 1
  funext i c
  dsimp only [Function.comp_apply]
  cases columns.contains i <;> rfl

theorem unmask_mask (columns : Columns) (text : List Char) :
    unmask (some columns) (mask columns text) = mask columns text := by
  unfold unmask
  dsimp only
  rw [mask_mask, ite_self, ite_self]

/-- A line that starts no entry as it is starts one with its code blanked, or none. -/
theorem unmask_of_not_startsEntry {text : List Char} (h : startsEntry (kept text) = false)
    (columns : Columns) : unmask (some columns) text =
      if startsEntry (kept (mask columns text)) then mask columns text else text := by
  unfold unmask
  dsimp only
  rw [h, if_neg Bool.false_ne_true]

theorem unmask_unmask (code : Option Columns) (text : List Char) :
    unmask code (unmask code text) = unmask code text := by
  obtain h | ⟨columns, rfl, h⟩ := unmask_cases code text
  · rw [h, h]
  · rw [h, unmask_mask]

/-! ## How far entries have come -/

/-- The texts of the entries read so far, without those of other text, and whether a line may
continue the last of them. -/
structure Progress where
  texts : List (List Char)
  isOpen : Bool
  deriving DecidableEq, Repr

/-- One more line is read: it starts an entry, continues the open one, or is passed over. -/
def Progress.read (p : Progress) (text : List Char) : Progress :=
  if startsEntry text then ⟨p.texts ++ [text], !endsPeriod text⟩
  else if p.isOpen && !Text.allBlank text then
    let joined := p.texts.getLast?.getD [] ++ ' ' :: Text.trim text
    ⟨p.texts.dropLast ++ [joined], !endsPeriod joined⟩
  else p

/-- How far entries have come with some lines. -/
def progressOf (code : Option Columns) (lines : List Line) : Progress :=
  ⟨((ofLines code lines).map (·.text)).filter startsEntry, endsOpen code lines⟩

theorem isOpen_eq (e : Entry) : e.isOpen = (startsEntry e.text && !endsPeriod e.text) := rfl

/-- A line adds to the entries what is read of it. -/
theorem progressOf_concat (code : Option Columns) (lines : List Line) (line : Line) :
    progressOf code (lines ++ [line]) = (progressOf code lines).read (readText code line) := by
  have hread : isRead code line = !Text.allBlank (readText code line) := rfl
  have hstarts : startsIn code line = startsEntry (readText code line) := rfl
  have htext : (ofLine code line).text = readText code line := rfl
  obtain ⟨hr, he⟩ | ⟨hr, hs, done, e, hl, ho, he⟩ | ⟨hr, hb, he⟩ :=
    ofLines_concat_cases code lines line
  · have hs : startsEntry (readText code line) = false :=
      Bool.eq_false_iff.2 fun h => by rw [isRead_of_startsIn h] at hr; cases hr
    rw [hread] at hr
    simp only [progressOf, endsOpen, he, Progress.read, hs, hr, Bool.and_false,
      Bool.false_eq_true, if_false]
  · have hopen := isOpen_append ho (ofLine code line)
    have hse := (Bool.and_eq_true_iff.1 ho).1
    have hsa := startsEntry_append hse (ofLine code line)
    rw [hread] at hr
    rw [hstarts] at hs
    have hends : endsOpen code lines = true := by
      rw [endsOpen, hl, List.getLast?_concat, Option.any_some, ho]
    have htexts : ((ofLines code lines).map (·.text)).filter startsEntry =
        (done.map (·.text)).filter startsEntry ++ [e.text] := by
      rw [hl, List.map_append, List.filter_append, List.map_singleton,
        List.filter_cons_of_pos hse, List.filter_nil]
    simp only [Progress.read, progressOf, hs, hends, hr, htexts, Bool.and_self, if_true,
      Bool.false_eq_true, if_false, List.getLast?_concat, Option.getD_some, List.dropLast_concat]
    rw [endsOpen, he, List.getLast?_concat, Option.any_some, hopen, List.map_append,
      List.filter_append, List.map_singleton, List.filter_cons_of_pos hsa, List.filter_nil]
    rfl
  · have hends : endsOpen code (lines ++ [line]) = (ofLine code line).isOpen := by
      rw [endsOpen, he, List.getLast?_concat, Option.any_some]
    rw [progressOf, hends, he, List.map_append, List.filter_append, List.map_singleton, isOpen_eq,
      htext]
    cases hs : startsEntry (readText code line) with
    | true =>
      simp only [Progress.read, progressOf, hs, if_true, List.filter_cons_of_pos hs,
        List.filter_nil, Bool.true_and]
    | false =>
      have hclosed : endsOpen code lines = false := by
        rcases hb with hb | hb
        · rw [hstarts, hs] at hb
          cases hb
        · exact hb
      simp [Progress.read, progressOf, hs, hclosed]

theorem progressOf_eq_foldl (code : Option Columns) (lines : List Line) :
    progressOf code lines = (lines.map (readText code)).foldl Progress.read ⟨[], false⟩ := by
  induction lines using List.reverseRecOn with
  | nil => rfl
  | append_singleton lines line ih =>
    rw [progressOf_concat, ih, List.map_append, List.map_singleton, List.foldl_concat]

/-! ## Lines with their codes blanked -/

/-- How far entries come with the columns of all lines blanked. -/
def blankedProgress (columns : Columns) (lines : List Line) : Progress :=
  (lines.map fun line => kept (mask columns line.text)).foldl Progress.read ⟨[], false⟩

/-- The codes on the lines that continue entries do no harm: none ends an entry or hides the end of
one, and in the entries they are tokens of no clause that stand between the clauses. -/
structure HarmlessCodes (columns : Columns) (lines : List Line) : Prop where
  /-- Behind an open entry, a line that starts no entry with the columns blanked ends in a period if
  and only if it does with them blanked. -/
  period : ∀ i < lines.length, ∀ line ∈ lines[i]?,
    endsOpen (some columns) (lines.take i) = true →
    startsEntry (kept (mask columns line.text)) = false →
    endsPeriod (kept line.text) = endsPeriod (kept (mask columns line.text))
  /-- Each entry has the clauses that it has with the columns of all lines blanked. -/
  clauses : ∀ x ∈ (progressOf (some columns) lines).texts.zip
    (blankedProgress columns lines).texts, SameClauses (clauseTokens x.1) (clauseTokens x.2)

theorem isSome_heading? (text : List Char) : (heading? text).isSome = startsEntry text := by
  rw [heading?, Option.isSome_map, isSome_outline?]

/-- What is written behind a blank leaves the level and the name of an entry. -/
theorem heading?_append {front rest : List Char} (hfront : startsEntry front = true)
    (hrest : BeginsBlank rest) : heading? (front ++ rest) = heading? front := by
  obtain ⟨h, hs⟩ := Option.isSome_iff_exists.1 hfront
  rw [heading?, heading?, outline?, outline?, split?_append hs hrest, hs]
  rfl

theorem endsPeriod_of_allBlank {text : List Char} (h : Text.allBlank text = true) :
    endsPeriod text = false := by
  obtain ⟨blanks, htext, -⟩ := Text.trimEnd_append_blanks text
  refine beq_eq_false_iff_ne.2 fun hlast => ?_
  have hmem : '.' ∈ text := by
    rw [htext]
    exact List.mem_append_left _ (List.mem_of_getLast? hlast)
  exact absurd (List.all_eq_true.1 h '.' hmem) (by decide +kernel)

namespace Progress

/-- All texts begin entries, and there is one that may be continued if a line may continue it. -/
structure IsSound (p : Progress) : Prop where
  starts : ∀ text ∈ p.texts, startsEntry text = true
  texts_ne_nil : p.isOpen = true → p.texts ≠ []

/-- The entries have the same levels and names, and the last ones may both be continued or not. -/
structure Agrees (p q : Progress) : Prop where
  headings_eq : p.texts.map heading? = q.texts.map heading?
  isOpen_eq : p.isOpen = q.isOpen

theorem Agrees.isSound {p q : Progress} (h : p.Agrees q) (hp : p.IsSound) : q.IsSound := by
  have hlength : p.texts.length = q.texts.length := by
    simpa using congrArg List.length h.headings_eq
  refine ⟨fun text ht => ?_, fun ho hnil => ?_⟩
  · have hmem : heading? text ∈ p.texts.map heading? := by
      rw [h.headings_eq]
      exact List.mem_map_of_mem ht
    obtain ⟨text', ht', hsame⟩ := List.mem_map.1 hmem
    rw [← isSome_heading?, ← hsame, isSome_heading?]
    exact hp.starts text' ht'
  · rw [hnil, List.length_nil, List.length_eq_zero_iff] at hlength
    exact hp.texts_ne_nil (h.isOpen_eq.trans ho) hlength

/-- A line that continues an entry leaves its level and its name, and ends it with a period. -/
theorem IsSound.read_open {p : Progress} (hp : p.IsSound) (ho : p.isOpen = true)
    {text : List Char} (hs : startsEntry text = false) :
    (p.read text).texts.map heading? = p.texts.map heading? ∧
      (p.read text).isOpen = !endsPeriod text := by
  have hspace : BeginsBlank (' ' :: Text.trim text) := by
    rintro c ⟨⟩
    decide +kernel
  unfold read
  rw [hs, if_neg Bool.false_ne_true, ho, Bool.true_and]
  cases hb : Text.allBlank text with
  | true =>
    rw [Bool.not_true, if_neg Bool.false_ne_true, endsPeriod_of_allBlank hb]
    exact ⟨rfl, ho⟩
  | false =>
    obtain ⟨done, last, hlast⟩ := List.eq_nil_or_concat p.texts |>.resolve_left
      (hp.texts_ne_nil ho)
    have hstarts : startsEntry last = true := hp.starts last (by simp [hlast])
    simp only [Bool.not_false, if_true, hlast, List.concat_eq_append, List.getLast?_concat,
      Option.getD_some, List.dropLast_concat, List.map_append, List.map_singleton]
    rw [heading?_append hstarts hspace, endsPeriod_append last hb]
    exact ⟨rfl, rfl⟩

/-- Two lines that do not start entries are read alike if they end in a period alike. -/
theorem Agrees.read_continued {p q : Progress} (h : p.Agrees q) (hp : p.IsSound)
    {text text' : List Char} (hs : startsEntry text = false) (hs' : startsEntry text' = false)
    (hperiod : p.isOpen = true → endsPeriod text = endsPeriod text') :
    (p.read text).Agrees (q.read text') := by
  cases ho : p.isOpen with
  | true =>
    obtain ⟨hheadings, hopen⟩ := hp.read_open ho hs
    obtain ⟨hheadings', hopen'⟩ := (h.isSound hp).read_open (h.isOpen_eq.symm.trans ho) hs'
    exact ⟨hheadings.trans (h.headings_eq.trans hheadings'.symm),
      by rw [hopen, hopen', hperiod ho]⟩
  | false =>
    have hq : q.isOpen = false := h.isOpen_eq.symm.trans ho
    simp only [read, hs, hs', ho, hq, Bool.false_and, Bool.false_eq_true, if_false]
    exact h

/-- A line that starts an entry does so whatever was read before. -/
theorem Agrees.read_started {p q : Progress} (h : p.Agrees q) {text : List Char}
    (hs : startsEntry text = true) : (p.read text).Agrees (q.read text) := by
  simp only [read, hs, if_true]
  exact ⟨by rw [List.map_append, List.map_append, h.headings_eq], rfl⟩

end Progress

theorem isSound_progressOf (code : Option Columns) (lines : List Line) :
    (progressOf code lines).IsSound := by
  refine ⟨fun text ht => (List.mem_filter.1 ht).2, fun ho hnil => ?_⟩
  obtain ⟨e, he, hopen⟩ := (Option.any_eq_true _ _).1 ho
  have hmem : e.text ∈ (progressOf code lines).texts :=
    List.mem_filter.2 ⟨List.mem_map_of_mem (List.mem_of_getLast? he),
      (Bool.and_eq_true_iff.1 hopen).1⟩
  rw [hnil] at hmem
  cases hmem

/-- The lines make the entries that they make with the codes blanked, if no code on a line that
continues an entry ends it or hides its end. -/
theorem agrees_blankedProgress {columns : Columns} {lines : List Line}
    (hcodes : ∀ line ∈ lines, startsEntry (kept line.text) = false)
    (hperiod : ∀ i < lines.length, ∀ line ∈ lines[i]?,
      endsOpen (some columns) (lines.take i) = true →
      startsEntry (kept (mask columns line.text)) = false →
      endsPeriod (kept line.text) = endsPeriod (kept (mask columns line.text))) :
    (progressOf (some columns) lines).Agrees (blankedProgress columns lines) := by
  induction lines using List.reverseRecOn with
  | nil => exact ⟨rfl, rfl⟩
  | append_singleton lines line ih =>
    obtain ⟨hlines, hline⟩ := List.forall_mem_append.1 hcodes
    have hraw := hline line (List.mem_singleton_self line)
    have hbefore : (progressOf (some columns) lines).Agrees (blankedProgress columns lines) := by
      refine ih hlines fun i hi l hl ho hs => ?_
      refine hperiod i (by simp; omega) l (by rwa [List.getElem?_append_left hi]) ?_ hs
      rwa [List.take_append_of_le_length (Nat.le_of_lt hi)]
    have hlast : endsOpen (some columns) lines = true →
        startsEntry (kept (mask columns line.text)) = false →
        endsPeriod (kept line.text) = endsPeriod (kept (mask columns line.text)) := by
      intro ho
      refine hperiod lines.length (by simp) line (by simp) ?_
      rwa [List.take_left' rfl]
    have htext : readText (some columns) line =
        if startsEntry (kept (mask columns line.text)) then kept (mask columns line.text)
        else kept line.text := by
      rw [readText, unmask_of_not_startsEntry hraw, apply_ite kept]
    have hblanked : blankedProgress columns (lines ++ [line]) =
        (blankedProgress columns lines).read (kept (mask columns line.text)) := by
      rw [blankedProgress, blankedProgress, List.map_append, List.map_singleton,
        List.foldl_concat]
    rw [progressOf_concat, hblanked, htext]
    cases hs : startsEntry (kept (mask columns line.text)) with
    | true => exact hbefore.read_started hs
    | false =>
      rw [if_neg Bool.false_ne_true]
      exact hbefore.read_continued (isSound_progressOf _ _) hraw hs fun ho => hlast ho hs

/-- What two functions agree on, member by member. -/
theorem map_eq_map_of_zip {α β γ : Type} {f : α → β} {g : α → γ} {as as' : List α}
    (hf : as.map f = as'.map f)
    (h : ∀ x ∈ as.zip as', f x.1 = f x.2 → g x.1 = g x.2) : as.map g = as'.map g := by
  induction as generalizing as' with
  | nil =>
    obtain rfl := List.map_eq_nil_iff.1 hf.symm
    rfl
  | cons a as ih =>
    obtain ⟨a', rest, rfl, ha, hrest⟩ := List.map_eq_cons_iff.1 hf.symm
    rw [List.zip_cons_cons] at h
    obtain ⟨hhead, htail⟩ := List.forall_mem_cons.1 h
    rw [List.map_cons, List.map_cons, hhead ha.symm, ih hrest.symm htail]

/-- Entries are read as they are with the codes of all lines blanked. -/
theorem HarmlessCodes.scans_eq {columns : Columns} {lines : List Line}
    (h : HarmlessCodes columns lines)
    (hcodes : ∀ line ∈ lines, startsEntry (kept line.text) = false) :
    (progressOf (some columns) lines).texts.map scan =
      (blankedProgress columns lines).texts.map scan :=
  map_eq_map_of_zip (agrees_blankedProgress hcodes h.period).headings_eq
    fun x hx hheading => scan_eq_of_sameClauses hheading (h.clauses x hx)

end Entry

namespace Record

/-- Other text takes no part in a walk. -/
theorem Walk.run_filter (rules : Rules) (entries : List Entry) :
    run rules (entries.filter fun e => Entry.startsEntry e.text) = run rules entries := by
  have hpass : ∀ (w : Walk) (e : Entry), Entry.startsEntry e.text = false →
      w.addEntry rules e = w := by
    intro w e hs
    have hsplit : Entry.Head.split? e.text = none := by
      rw [← Option.not_isSome_iff_eq_none, ← Entry.startsEntry, hs]
      exact Bool.false_ne_true
    simp only [addEntry, Entry.scan, hsplit]
  have hstep : (fun (w : Walk) (e : Entry) =>
      if Entry.startsEntry e.text = true then w.addEntry rules e else w) = addEntry rules := by
    funext w e
    split
    · rfl
    · rename_i hs
      exact (hpass w e (Bool.eq_false_iff.2 hs)).symm
  rw [run, List.foldl_filter, hstep, run]

/-- The two records have the same last byte and the same fields, but for the numbers of lines. -/
def IsSame (r s : Record) : Prop :=
  r.fields.map Field.withoutLine = s.fields.map Field.withoutLine ∧ r.recordEnd = s.recordEnd

instance (r s : Record) : Decidable (IsSame r s) := inferInstanceAs (Decidable (_ ∧ _))

/-- Records depend on how the texts are read that begin with a level and a name. -/
theorem isSame_ofEntries (rules : Rules) {entries entries' : List Entry}
    (h : ((entries.map (·.text)).filter Entry.startsEntry).map Entry.scan =
      ((entries'.map (·.text)).filter Entry.startsEntry).map Entry.scan) :
    IsSame (ofEntries rules entries) (ofEntries rules entries') := by
  rw [List.filter_map, List.filter_map, List.map_map, List.map_map] at h
  have hrun : ∀ es : List Entry, ofEntries rules es =
      ofEntries rules (es.filter fun e => Entry.startsEntry e.text) := fun es => by
    rw [ofEntries, ofEntries, Walk.run_filter]
  rw [hrun, hrun entries']
  exact ⟨fields_ofEntries_congr rules h, congrArg (· - 1) (Walk.alike_run rules h).cursor_eq⟩

theorem isSame_ofLines {rules : Rules} {columns : Entry.Columns}
    (hc : rules.strategy.columns? = some columns) {lines lines' : List Line}
    (h : (Entry.progressOf (some columns) lines).texts.map Entry.scan =
      (Entry.progressOf (some columns) lines').texts.map Entry.scan) :
    IsSame (ofLines rules lines) (ofLines rules lines') := by
  rw [ofLines, ofLines, hc]
  exact isSame_ofEntries rules h

/-- The code in front of an entry is no part of it: the record is the same with the code blanked on
each line that starts an entry then.  And it is the same with the codes of all lines blanked, if
those on the lines that continue entries do no harm. -/
theorem codes_stay_outside {rules : Rules} {columns : Entry.Columns}
    (hc : rules.strategy.columns? = some columns) {lines : List Line}
    (hcodes : ∀ line ∈ lines, Entry.startsEntry (Entry.kept line.text) = false) :
    (∀ unmasked : List Line,
      unmasked.map (·.text) = lines.map (fun line =>
        if Entry.startsEntry (Entry.kept (Entry.mask columns line.text)) then
          Entry.mask columns line.text
        else line.text) →
      IsSame (ofLines rules lines) (ofLines rules unmasked)) ∧
    (Entry.HarmlessCodes columns lines → ∀ masked : List Line,
      masked.map (·.text) = lines.map (fun line => Entry.mask columns line.text) →
      IsSame (ofLines rules lines) (ofLines rules masked)) := by
  have hread : ∀ all : List Line, all.map (Entry.readText (some columns)) =
      (all.map (·.text)).map fun text => Entry.kept (Entry.unmask (some columns) text) := by
    intro all
    rw [List.map_map]
    rfl
  refine ⟨fun unmasked hu => isSame_ofLines hc ?_, fun h masked hm => isSame_ofLines hc ?_⟩
  · have hall : unmasked.map (Entry.readText (some columns)) =
        lines.map (Entry.readText (some columns)) := by
      rw [hread unmasked, hu, List.map_map]
      refine List.map_congr_left fun line hline => ?_
      rw [Function.comp_apply, ← Entry.unmask_of_not_startsEntry (hcodes line hline),
        Entry.unmask_unmask, Entry.readText]
    rw [Entry.progressOf_eq_foldl, Entry.progressOf_eq_foldl, hall]
  · have hall : masked.map (Entry.readText (some columns)) =
        lines.map fun line => Entry.kept (Entry.mask columns line.text) := by
      rw [hread masked, hm, List.map_map]
      refine List.map_congr_left fun line _ => ?_
      rw [Function.comp_apply, Entry.unmask_mask]
    rw [h.scans_eq hcodes, Entry.progressOf_eq_foldl _ masked, hall]
    rfl

/-- Headers, told by a code in the first two columns. -/
def headers : Rules.Config where
  ruleType := "position-based"
  recordTypeField := some { start := some 1, length := some 2, values := [("HD", "HEADER")] }

def headerRules : Rules := .standard headers (.position ⟨1, 2, [("HD", "HEADER")], true, false⟩)

theorem interpret_headers : Rules.interpretWith .plain headers = .ok headerRules :=
  Rules.interpret_eq_standard rfl rfl rfl

/-- Codes in front of three entries and of other text, and on two lines that continue an entry:
before its repetition and within that.  The line with the last picture has none. -/
theorem codes_stay_outside_continued :
    let columns : Entry.Columns := ⟨0, 2⟩
    let texts := ["HD01 A.", "HD   TOTALS", "HD   05 B PIC X(4)", "HD   OCCURS 2", "HD   TIMES.",
      "HD   05 C PIC", "     X(3)."].map String.toList
    let lines := (Source.ofLines texts).lines
    let masked := (Source.ofLines (texts.map (Entry.mask columns))).lines
    let unmask := fun text => if Entry.startsEntry (Entry.kept (Entry.mask columns text)) then
      Entry.mask columns text else text
    let unmasked := (Source.ofLines (texts.map unmask)).lines
    Rules.interpretWith .plain headers = .ok headerRules ∧
      headerRules.strategy.columns? = some columns ∧
      (∀ line ∈ lines, Entry.startsEntry (Entry.kept line.text) = false) ∧
      Entry.HarmlessCodes columns lines ∧
      unmasked.map (·.text) = lines.map (fun line => unmask line.text) ∧
      IsSame (ofLines headerRules lines) (ofLines headerRules unmasked) ∧
      masked.map (·.text) = lines.map (fun line => Entry.mask columns line.text) ∧
      IsSame (ofLines headerRules lines) (ofLines headerRules masked) ∧
      (ofLines headerRules lines).fields.map (fun f => (f.name, f.occurs)) =
        [("A", none), ("B", some 2), ("C", none)] ∧
      (ofLines headerRules lines).recordEnd = 13 := by
  intro columns texts lines masked unmask unmasked
  have hc : headerRules.strategy.columns? = some columns := rfl
  have hcodes : ∀ line ∈ lines, Entry.startsEntry (Entry.kept line.text) = false := by
    decide +kernel
  have hunmasked : unmasked.map (·.text) = lines.map fun line => unmask line.text := by
    decide +kernel
  have hmasked : masked.map (·.text) = lines.map fun line => Entry.mask columns line.text := by
    decide +kernel
  let code := Entry.Token.word "HD".toList
  let count := [Entry.Token.word "OCCURS".toList, .word ['2']]
  let times := Entry.Token.word "TIMES.".toList
  have hcode : code.isIdle = true := by decide +kernel
  have hpicture : Entry.Completes "PIC".toList [.word "X(4)".toList] :=
    .word (by decide +kernel) rfl
  have hcount : Entry.SameClauses (count ++ [code, times]) (count ++ [times]) :=
    .count (by decide +kernel) (by decide +kernel) (by decide +kernel) (.left hcode (.refl _))
  have hclauses : Entry.SameClauses
      (.word "PIC".toList :: .word "X(4)".toList :: code :: (count ++ [code, times]))
      (.word "PIC".toList :: .word "X(4)".toList :: (count ++ [times])) :=
    .clause hpicture (.left hcode hcount)
  have hentries : ((Entry.progressOf (some columns) lines).texts.zip
      (Entry.blankedProgress columns lines).texts).map
        (fun x => (Entry.clauseTokens x.1, Entry.clauseTokens x.2)) =
      [([.word ['.']], [.word ['.']]),
        (.word "PIC".toList :: .word "X(4)".toList :: code :: (count ++ [code, times]),
          .word "PIC".toList :: .word "X(4)".toList :: (count ++ [times])),
        ([.word "PIC".toList, .word "X(3).".toList],
          [.word "PIC".toList, .word "X(3).".toList])] := by
    decide +kernel
  have hall : ∀ y ∈ ((Entry.progressOf (some columns) lines).texts.zip
      (Entry.blankedProgress columns lines).texts).map
        (fun x => (Entry.clauseTokens x.1, Entry.clauseTokens x.2)),
      Entry.SameClauses y.1 y.2 := by
    rw [hentries]
    simp only [List.forall_mem_cons, List.not_mem_nil, false_imp_iff, implies_true, and_true]
    exact ⟨.refl _, hclauses, .refl _⟩
  have hharmless : Entry.HarmlessCodes columns lines :=
    ⟨by decide +kernel, List.forall_mem_map.1 hall⟩
  obtain ⟨hfronts, hall⟩ := codes_stay_outside hc hcodes
  exact ⟨interpret_headers, hc, hcodes, hharmless, hunmasked, hfronts unmasked hunmasked, hmasked,
    hall hharmless masked hmasked, by decide +kernel, by decide +kernel⟩

/-- A code between `PIC` and its picture is taken for the picture, and the entry is rejected.  With
the codes blanked it is not. -/
theorem code_within_picture :
    let columns : Entry.Columns := ⟨0, 2⟩
    let texts := ["HD01 A.", "HD   05 B PIC", "HD   X(4)."].map String.toList
    let lines := (Source.ofLines texts).lines
    let masked := (Source.ofLines (texts.map (Entry.mask columns))).lines
    Rules.interpretWith .plain headers = .ok headerRules ∧
      headerRules.strategy.columns? = some columns ∧
      (∀ line ∈ lines, Entry.startsEntry (Entry.kept line.text) = false) ∧
      masked.map (·.text) = lines.map (fun line => Entry.mask columns line.text) ∧
      ¬ IsSame (ofLines headerRules lines) (ofLines headerRules masked) ∧
      (ofLines headerRules lines).fields.map (·.name) = ["A"] ∧
      (ofLines headerRules masked).fields.map (·.name) = ["A", "B"] := by
  intro columns texts lines masked
  exact ⟨interpret_headers, rfl, by decide +kernel, by decide +kernel, by decide +kernel,
    by decide +kernel, by decide +kernel⟩

end Record

end DataDivision
