import DataDivision.Proofs.Record.Steps

/-!
The findings of a record.

Only a record that is too large makes an error, and it makes one at most; everything else that a
walk reports is a warning.
-/

namespace DataDivision.Record

/-- Some finding of the record belongs to the given rule. -/
def reports (r : Record) (code : Code) : Bool := r.diagnostics.any (·.code == some code)

namespace Walk

/-- The errors are the findings about the size, of which there is one if the walk has overflowed. -/
structure Accounted (w : Walk) : Prop where
  isError_iff : ∀ d ∈ w.diagnostics, d.isError = true ↔ d.code = some .recordTooLarge
  count_tooLarge :
    w.diagnostics.countP (·.code == some .recordTooLarge) = if w.tooLarge then 1 else 0

namespace Accounted

theorem of_eq {w v : Walk} (h : w.Accounted) (hd : v.diagnostics = w.diagnostics)
    (ht : v.tooLarge = w.tooLarge) : v.Accounted := by
  constructor
  · exact hd ▸ h.isError_iff
  · rw [hd, ht]
    exact h.count_tooLarge

theorem report {w : Walk} {d : Diagnostic} (hd : d.IsPlain) (h : w.Accounted) :
    (w.report d).Accounted := by
  obtain ⟨hs, hc⟩ := hd
  constructor
  · intro e he
    rcases List.mem_append.1 he with he | he
    · exact h.isError_iff e he
    · obtain rfl : e = d := by simpa using he
      simp [Diagnostic.isError, hs, hc]
  · have hp : [d].countP (·.code == some .recordTooLarge) = 0 := by simp [hc]
    simp only [Walk.report, List.countP_append, hp]
    exact h.count_tooLarge

theorem overflow {w : Walk} (name : String) (span : Span) (h : w.Accounted) :
    (w.overflow name span).Accounted := by
  unfold Walk.overflow
  cases ht : w.tooLarge with
  | true => exact h
  | false =>
    constructor
    · intro e he
      rcases List.mem_append.1 he with he | he
      · exact h.isError_iff e he
      · obtain rfl : e = tooLargeDiagnostic name span := by simpa using he
        simp [Diagnostic.isError, tooLargeDiagnostic]
    · have hp : [tooLargeDiagnostic name span].countP (·.code == some .recordTooLarge) = 1 := by
        simp [tooLargeDiagnostic]
      have hc := h.count_tooLarge
      simp only [ht, Bool.false_eq_true, ↓reduceIte] at hc
      simp [Walk.report, List.countP_append, hp, hc]

theorem bound {w : Walk} (next : Option Nat) (name : String) (span : Span) (h : w.Accounted) :
    (w.bound next name span).2.Accounted := by
  obtain ⟨n, -, -, hb⟩ | ⟨-, hb⟩ := bound_cases w next name span
  · rwa [hb]
  · rw [hb]
    exact h.overflow name span

theorem close {w : Walk} (s : Scope) (h : w.Accounted) : (w.close s).Accounted := by
  cases s with
  | group group outer =>
    cases hs : w.slots[group.index]? with
    | none =>
      simp only [Walk.close, closeGroup, hs]
      exact h.of_eq rfl rfl
    | some slot =>
      simp only [Walk.close, closeGroup_of_some outer hs]
      exact (h.bound _ _ _).of_eq rfl rfl
  | overlay overlay outer => exact h.of_eq rfl rfl

theorem resolveUsage {w : Walk} (rules : Rules) (usage : Option String) (name : String)
    (span : Span) (h : w.Accounted) : (w.resolveUsage rules usage name span).2.Accounted := by
  obtain ⟨-, hw | ⟨d, hd, hw⟩⟩ := resolveUsage_cases rules usage name span w
  · rwa [hw]
  · rw [hw]
    exact h.report hd

theorem redefine {w : Walk} (rules : Rules) (d : Entry.Descriptor) (span : Span)
    (h : w.Accounted) : (w.redefine rules d span).2.Accounted := by
  have hv : ∀ v, (v = w ∨ ∃ e : Diagnostic, e.IsPlain ∧ v = w.report e) → v.Accounted := by
    rintro v (rfl | ⟨e, he, rfl⟩)
    · exact h
    · exact h.report he
  obtain ⟨v, hw, hr⟩ | ⟨v, _, _, _, _, hw, -, -, -, -, hr⟩ := redefine_cases rules d span w
  · rw [hr]
    exact hv v hw
  · rw [hr]
    exact (hv v hw).of_eq rfl rfl

theorem declare {w : Walk} (rules : Rules) (x : Declaration) (h : w.Accounted) :
    (w.declare rules x).Accounted := by
  have hr := h.redefine rules x.descriptor x.entry.span
  unfold Walk.declare
  dsimp only
  split
  · exact hr.of_eq rfl rfl
  · rw [addElementary_eq]
    exact ((hr.resolveUsage rules _ _ _).bound _ _ _).of_eq rfl rfl

end Accounted

theorem accounted_run (rules : Rules) (entries : List Entry) : (run rules entries).Accounted := by
  refine run_induct ?_ ?_ ?_ ?_ ?_ entries
  · exact ⟨by simp [start], by simp [start]⟩
  · exact fun w level s _ h => h.close s
  · exact fun w d hd h => h.report hd
  · exact fun w d line span i slot _ _ _ h => h.of_eq rfl rfl
  · exact fun w x _ _ h => h.declare rules x

end Walk

/-! ## Records -/

theorem isError_iff_of_mem {rules : Rules} {entries : List Entry} {d : Diagnostic}
    (h : d ∈ (ofEntries rules entries).diagnostics) :
    d.isError = true ↔ d.code = some .recordTooLarge :=
  (Walk.accounted_run rules entries).isError_iff d h

/-- A record reports its size once if its walk has overflowed, and else not at all. -/
theorem count_tooLarge (rules : Rules) (entries : List Entry) :
    (ofEntries rules entries).diagnostics.countP (·.code == some .recordTooLarge) =
      if (Walk.run rules entries).tooLarge then 1 else 0 :=
  (Walk.accounted_run rules entries).count_tooLarge

theorem reports_tooLarge (rules : Rules) (entries : List Entry) :
    (ofEntries rules entries).reports .recordTooLarge = (Walk.run rules entries).tooLarge := by
  have hc := count_tooLarge rules entries
  have hp := List.countP_pos_iff (p := fun d : Diagnostic => d.code == some .recordTooLarge)
    (l := (ofEntries rules entries).diagnostics)
  rw [hc] at hp
  unfold reports
  rw [Bool.eq_iff_iff, List.any_eq_true, ← hp]
  cases (Walk.run rules entries).tooLarge <;> simp

end DataDivision.Record
