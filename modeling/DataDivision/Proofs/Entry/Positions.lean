import DataDivision.Proofs.Entry.Joining
import DataDivision.Proofs.Text.Lines

/-!
Where entries start.

The lines of a source lie behind one another in its text (`getElem?_lines`), and an entry starts on
the line of which it has the number, however many lines are joined to it
(`Entry.startsIn_of_mem_ofLines`).
-/

namespace DataDivision

/-- The byte at an offset belongs to the line, or stands right behind it. -/
def Line.Holds (line : Line) (offset : Nat) : Prop :=
  line.span.start ≤ offset ∧ offset ≤ line.span.stop

instance (line : Line) (offset : Nat) : Decidable (line.Holds offset) :=
  inferInstanceAs (Decidable (_ ∧ _))

namespace Source

theorem getElem?_place (number offset : Nat) (texts : List (List Char)) (i : Nat) :
    (place number offset texts)[i]? = texts[i]?.map fun text =>
      ⟨number + i, text, Span.of (offset + Text.lineStart texts i)
        (offset + Text.lineStart texts i + Text.byteLength text)⟩ := by
  induction texts generalizing number offset i with
  | nil => rfl
  | cons text rest ih =>
    cases i with
    | zero => simp [place, Text.lineStart]
    | succ i =>
      rw [place, List.getElem?_cons_succ, List.getElem?_cons_succ, ih, Text.lineStart_cons_succ]
      have hstart : offset + Text.byteLength text + 1 + Text.lineStart rest i =
          offset + (Text.byteLength text + 1 + Text.lineStart rest i) := by omega
      have hnumber : number + 1 + i = number + (i + 1) := by omega
      simp only [hstart, hnumber]

/-- A line of a source has its number, the text of its physical line, and the bytes that this takes
behind the lines before. -/
theorem getElem?_lines (texts : List (List Char)) (i : Nat) :
    (ofLines texts).lines[i]? = (texts.map Text.dropBreaks)[i]?.map fun text =>
      ⟨i + 1, text, Span.of (Text.lineStart (texts.map Text.dropBreaks) i)
        (Text.lineStart (texts.map Text.dropBreaks) i + Text.byteLength text)⟩ := by
  have h := getElem?_place 1 0 (texts.map Text.dropBreaks) i
  simp only [Nat.zero_add, Nat.add_comm 1 i] at h
  exact h

/-- No line of a source starts before the end of an earlier one. -/
theorem pairwise_spans_place (number offset : Nat) (texts : List (List Char)) :
    (place number offset texts).Pairwise (fun a b => a.span.stop ≤ b.span.start) ∧
      ∀ line ∈ place number offset texts, offset ≤ line.span.start := by
  induction texts generalizing number offset with
  | nil => exact ⟨.nil, by simp [place]⟩
  | cons text rest ih =>
    obtain ⟨hp, hle⟩ := ih (number + 1) (offset + Text.byteLength text + 1)
    refine ⟨.cons (fun line hm => ?_) hp, fun line hm => ?_⟩
    · have := hle line hm
      simp only [Span.of]
      omega
    · rcases List.mem_cons.1 hm with rfl | hm
      · exact Nat.le_refl _
      · have := hle line hm
        omega

end Source

namespace Entry

/-- The part of a line that is read starts in the line. -/
theorem holds_of_ofLine? {code : Option Columns} {line : Line} {e : Entry}
    (h : ofLine? code line = some e) : line.Holds e.span.start := by
  unfold ofLine? at h
  dsimp only at h
  split at h
  · cases h
  · cases h
    exact ⟨line.span.le_slice_start _ _, Nat.le_trans (Span.start_le_stop _)
      (line.span.slice_stop_le _ _)⟩

/-- The entry starts on a line of which it has the number. -/
def StartsIn (e : Entry) (lines : List Line) : Prop :=
  ∃ line ∈ lines, line.number = e.line ∧ line.Holds e.span.start

/-- What is joined behind an entry does not move its start. -/
theorem start_append {p next : Entry} (h : p.span.start ≤ next.span.start) :
    (p.append next).span.start = p.span.start := by
  simp only [append, Span.union]
  omega

/-- Joining lines behind its own does not move the start of an entry. -/
theorem startsIn_of_mem_join {code : Option Columns} {all lines : List Line}
    (hsub : lines ⊆ all) (hp : lines.Pairwise fun a b => a.span.stop ≤ b.span.start)
    {pending : Option Entry} (hpending : ∀ p ∈ pending, p.StartsIn all ∧
      ∀ line ∈ lines, p.span.start ≤ line.span.start) :
    ∀ e ∈ join code pending lines, e.StartsIn all := by
  have hdone : ∀ e ∈ pending.toList, e.StartsIn all := fun e he =>
    (hpending e (Option.mem_toList.1 he)).1
  induction lines generalizing pending with
  | nil => exact hdone
  | cons line rest ih =>
    obtain ⟨hline, hrest⟩ := List.pairwise_cons.1 hp
    have hsub' : rest ⊆ all := fun l hl => hsub (List.mem_cons_of_mem _ hl)
    have hnone : ∀ e ∈ join code none rest, e.StartsIn all := ih hsub' hrest (by simp) (by simp)
    have hsome : ∀ p : Entry, p.StartsIn all → (∀ l ∈ rest, p.span.start ≤ l.span.start) →
        ∀ e ∈ join code (some p) rest, e.StartsIn all := fun p hs hle =>
      ih hsub' hrest (by rintro _ ⟨⟩; exact ⟨hs, hle⟩) (by simpa using hs)
    cases hl : ofLine? code line with
    | none =>
      simp only [join, hl]
      exact ih hsub' hrest (fun p hm => ⟨(hpending p hm).1, fun l hm' =>
        (hpending p hm).2 l (List.mem_cons_of_mem _ hm')⟩) hdone
    | some next =>
      have hholds := holds_of_ofLine? hl
      have hnext : next.StartsIn all :=
        ⟨line, hsub List.mem_cons_self, (line_of_ofLine? hl).symm, hholds⟩
      cases hc : continued? pending next with
      | some e =>
        obtain ⟨-, p, rfl, rfl⟩ := continued?_eq_some hc
        obtain ⟨⟨l, hm, hn, hh⟩, hle⟩ := hpending p rfl
        have hstart := start_append (Nat.le_trans (hle line List.mem_cons_self) hholds.1)
        have hs : (p.append next).StartsIn all := ⟨l, hm, hn, hstart ▸ hh⟩
        simp only [join, hl, hc]
        split
        · intro e he
          rcases List.mem_cons.1 he with rfl | he
          · exact hs
          · exact hnone e he
        · exact hsome _ hs fun l hm => hstart ▸ hle l (List.mem_cons_of_mem _ hm)
      | none =>
        simp only [join, hl, hc]
        intro e he
        rcases List.mem_append.1 he with he | he
        · exact hdone e he
        · split at he
          · exact hsome next hnext (fun l hm => Nat.le_trans hholds.2 (hline l hm)) e he
          · rcases List.mem_cons.1 he with rfl | he
            · exact hnext
            · exact hnone e he

theorem startsIn_of_mem_ofLines {code : Option Columns} {lines : List Line} {e : Entry}
    (h : lines.Pairwise fun a b => a.span.stop ≤ b.span.start) (he : e ∈ ofLines code lines) :
    e.StartsIn lines :=
  startsIn_of_mem_join (fun _ hl => hl) h (by simp) e he

end Entry

end DataDivision
