import DataDivision.Entry.Basic

/-!
Entries and their lines.

An entry has the number of the line it starts on, so entries stand in the order of their lines; and
what entries say depends only on what their lines say, not on where these stand.
-/

namespace DataDivision

namespace Source

theorem le_of_mem_place {number offset : Nat} {texts : List (List Char)} {line : Line}
    (h : line ∈ place number offset texts) : number ≤ line.number := by
  induction texts generalizing number offset with
  | nil => cases h
  | cons text rest ih =>
    rcases List.mem_cons.1 h with rfl | h
    · exact Nat.le_refl _
    · exact Nat.le_of_succ_le (ih h)

/-- The lines of a source are numbered in their order. -/
theorem pairwise_place (number offset : Nat) (texts : List (List Char)) :
    (place number offset texts).Pairwise fun a b => a.number < b.number := by
  induction texts generalizing number offset with
  | nil => exact .nil
  | cons text rest ih => exact .cons (fun _ h => le_of_mem_place h) (ih _ _)

theorem pairwise_lines (texts : List (List Char)) :
    (ofLines texts).lines.Pairwise fun a b => a.number < b.number := pairwise_place 1 0 _

end Source

namespace Entry

theorem line_of_ofLine? {code : Option Columns} {line : Line} {e : Entry}
    (h : ofLine? code line = some e) : e.line = line.number := by
  unfold ofLine? at h
  dsimp only at h
  split at h
  · cases h
  · cases h
    rfl

/-- A continued entry is the pending one with more text. -/
theorem continued?_eq_some {pending : Option Entry} {next e : Entry}
    (h : continued? pending next = some e) :
    startsEntry next.text = false ∧ ∃ p, pending = some p ∧ e = p.append next := by
  unfold continued? at h
  split at h
  · cases h
  · rename_i hs
    obtain ⟨p, hp, rfl⟩ := Option.map_eq_some_iff.1 h
    exact ⟨by simpa using hs, p, hp, rfl⟩

/-- Entries keep the order of the lines on which they start. -/
theorem lines_join_sublist (code : Option Columns) (pending : Option Entry) (lines : List Line) :
    ((join code pending lines).map (·.line)).Sublist
      ((pending.toList.map (·.line)) ++ lines.map (·.number)) := by
  induction lines generalizing pending with
  | nil => simp [join]
  | cons line rest ih =>
    rw [List.map_cons]
    cases hl : ofLine? code line with
    | none =>
      simp only [join, hl]
      exact (ih pending).trans (.append (.refl _) (List.sublist_cons_self _ _))
    | some next =>
      have hnext := line_of_ofLine? hl
      cases hc : continued? pending next with
      | some e =>
        obtain ⟨-, p, rfl, rfl⟩ := continued?_eq_some hc
        simp only [join, hl, hc]
        split
        · exact .cons_cons _ ((ih none).trans (List.sublist_cons_self _ _))
        · exact (ih (some (p.append next))).trans (.cons_cons _ (List.sublist_cons_self _ _))
      | none =>
        simp only [join, hl, hc, List.map_append]
        refine .append (.refl _) ?_
        rw [← hnext]
        split
        · exact ih (some next)
        · exact .cons_cons _ (ih none)

theorem lines_ofLines_sublist (code : Option Columns) (lines : List Line) :
    ((ofLines code lines).map (·.line)).Sublist (lines.map (·.number)) :=
  lines_join_sublist code none lines

/-! ## Equal texts -/

theorem text_ofLine?_congr (code : Option Columns) {line line' : Line}
    (h : line.text = line'.text) :
    (ofLine? code line).map (·.text) = (ofLine? code line').map (·.text) := by
  unfold ofLine?
  rw [h]
  dsimp only
  split <;> rfl

theorem isTerminated_congr {e e' : Entry} (h : e.text = e'.text) :
    e.isTerminated = e'.isTerminated := by
  simp only [isTerminated, h]

theorem isOpen_congr {e e' : Entry} (h : e.text = e'.text) : e.isOpen = e'.isOpen := by
  simp only [isOpen, h, isTerminated_congr h]

theorem text_continued?_congr {pending pending' : Option Entry} {next next' : Entry}
    (hp : pending.map (·.text) = pending'.map (·.text)) (hn : next.text = next'.text) :
    (continued? pending next).map (·.text) = (continued? pending' next').map (·.text) := by
  unfold continued?
  rw [hn]
  split
  · rfl
  · cases pending <;> cases pending' <;> simp_all [append]

/-- The texts of entries depend only on the texts of their lines. -/
theorem texts_join_congr (code : Option Columns) {pending pending' : Option Entry}
    {lines lines' : List Line} (hp : pending.map (·.text) = pending'.map (·.text))
    (h : lines.map (·.text) = lines'.map (·.text)) :
    (join code pending lines).map (·.text) = (join code pending' lines').map (·.text) := by
  have hlist : ∀ {p p' : Option Entry}, p.map (·.text) = p'.map (·.text) →
      p.toList.map (·.text) = p'.toList.map (·.text) := by
    intro p p' hp
    rw [← Option.toList_map, ← Option.toList_map, hp]
  induction lines generalizing pending pending' lines' with
  | nil =>
    obtain rfl := List.map_eq_nil_iff.1 h.symm
    exact hlist hp
  | cons line rest ih =>
    obtain ⟨line', rest', rfl, hline, hrest⟩ := List.map_eq_cons_iff.1 h.symm
    have hnext := text_ofLine?_congr code hline.symm
    cases hl : ofLine? code line with
    | none =>
      rw [hl, Option.map_none, eq_comm, Option.map_eq_none_iff] at hnext
      simp only [join, hl, hnext]
      exact ih hp hrest.symm
    | some next =>
      rw [hl, Option.map_some, eq_comm, Option.map_eq_some_iff] at hnext
      obtain ⟨next', hl', ht⟩ := hnext
      have hcont := text_continued?_congr hp ht.symm
      cases hc : continued? pending next with
      | some e =>
        rw [hc, Option.map_some, eq_comm, Option.map_eq_some_iff] at hcont
        obtain ⟨e', hc', he⟩ := hcont
        simp only [join, hl, hl', hc, hc', isTerminated_congr he]
        split
        · rw [List.map_cons, List.map_cons, he, ih rfl hrest.symm]
        · exact ih (by simp [he]) hrest.symm
      | none =>
        rw [hc, Option.map_none, eq_comm, Option.map_eq_none_iff] at hcont
        simp only [join, hl, hl', hc, hcont, isOpen_congr ht, List.map_append, hlist hp]
        have hp' : (some next).map (fun e : Entry => e.text) =
            (some next').map fun e : Entry => e.text := by simp [ht]
        split
        · rw [ih hp' hrest.symm]
        · rw [List.map_cons, List.map_cons, ht, ih rfl hrest.symm]

theorem texts_ofLines_congr (code : Option Columns) {lines lines' : List Line}
    (h : lines.map (·.text) = lines'.map (·.text)) :
    (ofLines code lines).map (·.text) = (ofLines code lines').map (·.text) :=
  texts_join_congr code rfl h

end Entry

end DataDivision
