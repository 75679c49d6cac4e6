import DataDivision.Proofs.Record.Steps

/-!
Findings by entry.

No step of a walk looks at the findings made before (`addEntry_after`), so the findings of a record
are those that its entries make one after another, and those of closing what is open at the end
(`diagnostics_run`).  Each is marked where its entry stands, but for the one that the record is too
large (`Concerns.addEntry`).
-/

namespace DataDivision.Record.Walk

/-! ## Findings made before -/

/-- The walk with more findings made before its own. -/
def after (w : Walk) (ds : List Diagnostic) : Walk := { w with diagnostics := ds ++ w.diagnostics }

/-- The walk without the findings made so far. -/
def quiet (w : Walk) : Walk := { w with diagnostics := [] }

theorem after_quiet (w : Walk) : w.quiet.after w.diagnostics = w := by
  simp only [after, quiet, List.append_nil]

section

variable (w : Walk) (ds : List Diagnostic)

theorem report_after (d : Diagnostic) : (w.after ds).report d = (w.report d).after ds := by
  simp only [report, after, List.append_assoc]

theorem overflow_after (name : String) (span : Span) :
    (w.after ds).overflow name span = (w.overflow name span).after ds := by
  have ht : (w.after ds).tooLarge = w.tooLarge := rfl
  unfold overflow
  rw [ht, report_after]
  split <;> rfl

theorem bound_after (next : Option Nat) (name : String) (span : Span) :
    (w.after ds).bound next name span =
      ((w.bound next name span).1, (w.bound next name span).2.after ds) := by
  obtain ⟨n, rfl, hn, hb⟩ | ⟨hn, hb⟩ := bound_cases w next name span
  · rw [hb, bound_of_le name span hn]
  · rw [hb, bound_of_lt name span hn, overflow_after]

theorem closeGroup_after (group : OpenGroup) (outer : List OpenGroup) :
    (w.after ds).closeGroup group outer = (w.closeGroup group outer).after ds := by
  cases hs : w.slots[group.index]? with
  | none =>
    have hs' : (w.after ds).slots[group.index]? = none := hs
    simp only [closeGroup, hs, hs']
    rfl
  | some slot =>
    have hs' : (w.after ds).slots[group.index]? = some slot := hs
    have hb : (w.after ds).behindGroup? slot = w.behindGroup? slot := rfl
    rw [closeGroup_of_some outer hs, closeGroup_of_some outer hs', hb, bound_after]
    rfl

theorem close_after (s : Scope) : (w.after ds).close s = (w.close s).after ds := by
  cases s with
  | group group outer => exact closeGroup_after w ds group outer
  | overlay overlay outer => rfl

theorem closeScopes_after (level : Nat) :
    (w.after ds).closeScopes level = (w.closeScopes level).after ds := by
  induction hd : w.depth using Nat.strongRecOn generalizing w with
  | _ n ih =>
    have hv : nextScope? level (w.after ds).groups (w.after ds).overlays =
        nextScope? level w.groups w.overlays := rfl
    cases hs : nextScope? level w.groups w.overlays with
    | none => rw [closeScopes_of_none hs, closeScopes_of_none (hv.trans hs)]
    | some s =>
      have hlt : (w.close s).depth < w.depth :=
        depth_closeScope? (by rw [closeScope?_eq, hs]; rfl)
      rw [closeScopes_of_some hs, closeScopes_of_some (hv.trans hs), close_after]
      exact ih _ (hd ▸ hlt) (w.close s) rfl

theorem redefine_after (rules : Rules) (d : Entry.Descriptor) (span : Span) :
    (w.after ds).redefine rules d span =
      ((w.redefine rules d span).1, (w.redefine rules d span).2.after ds) := by
  unfold redefine
  cases d.redefines with
  | none => rfl
  | some name =>
    dsimp only
    split
    · have ht : (w.after ds).target? name = w.target? name := rfl
      unfold openOverlay
      rw [ht]
      cases w.target? name with
      | none => simp only [report_after]
      | some i =>
        have hs : ∀ k : Nat, (w.after ds).slots[k]? = w.slots[k]? := fun _ => rfl
        have hb : baseOf (w.after ds).fields i = baseOf w.fields i := rfl
        simp only [hs, hb]
        cases w.slots[i]? with
        | none => rfl
        | some target =>
          cases w.slots[baseOf w.fields i]? with
          | none => rfl
          | some baseSlot =>
            dsimp only
            split
            · rw [report_after]
              rfl
            · rfl
    · rfl

theorem resolveUsage_after (rules : Rules) (usage : Option String) (name : String) (span : Span) :
    (w.after ds).resolveUsage rules usage name span =
      ((w.resolveUsage rules usage name span).1,
        (w.resolveUsage rules usage name span).2.after ds) := by
  unfold resolveUsage
  cases rules.usages.resolve usage with
  | some encoding => rfl
  | none => simp only [report_after]

theorem addElementary_after (rules : Rules) (d : Entry.Descriptor) (entry : Entry) (field : Field)
    (usage : Option String) :
    (w.after ds).addElementary rules d entry field usage =
      (w.addElementary rules d entry field usage).after ds := by
  rw [addElementary_eq, addElementary_eq]
  simp only [resolveUsage_after]
  generalize w.resolveUsage rules usage d.name entry.span = resolved
  have hc : (resolved.2.after ds).cursor = resolved.2.cursor := rfl
  simp only [hc, bound_after]
  rfl

theorem declare_after (rules : Rules) (x : Declaration) :
    (w.after ds).declare rules x = (w.declare rules x).after ds := by
  have hf : ∀ target, (w.after ds).fieldOf x target = w.fieldOf x target := fun _ => rfl
  have hu : (w.after ds).usageOf x.descriptor = w.usageOf x.descriptor := rfl
  unfold declare
  simp only [redefine_after, hf, hu]
  cases x.descriptor.kind with
  | group => rfl
  | elementary => exact addElementary_after _ ds rules _ _ _ _
  | condition => exact addElementary_after _ ds rules _ _ _ _

theorem addCondition_after (rules : Rules) (d : Entry.Descriptor) (entry : Entry) :
    (w.after ds).addCondition rules d entry = (w.addCondition rules d entry).after ds := by
  have hl : (w.after ds).lastElementary = w.lastElementary := rfl
  have hs : ∀ k : Nat, (w.after ds).slots[k]? = w.slots[k]? := fun _ => rfl
  unfold addCondition
  simp only [hl, hs]
  split
  · rfl
  · cases w.lastElementary.bind fun i => w.slots[i]?.map fun slot => (i, slot) with
    | none => exact report_after w ds _
    | some x => rfl

/-- What an entry does does not depend on the findings made before. -/
theorem addEntry_after (rules : Rules) (entry : Entry) :
    (w.after ds).addEntry rules entry = (w.addEntry rules entry).after ds := by
  have hfield : ∀ d, (w.after ds).addField rules d entry = (w.addField rules d entry).after ds := by
    intro d
    rw [addField_eq rules ⟨d, entry⟩, addField_eq rules ⟨d, entry⟩, closeScopes_after,
      declare_after]
  unfold addEntry
  cases Entry.scan entry.text entry.span with
  | error d => exact report_after w ds d
  | ok scanned =>
    cases scanned with
    | none => rfl
    | some d =>
      dsimp only
      cases d.kind with
      | condition => exact addCondition_after w ds rules d entry
      | group => exact hfield d
      | elementary => exact hfield d

end

/-! ## Findings of a walk -/

/-- The findings that an entry makes. -/
def findingsOf (rules : Rules) (w : Walk) (entry : Entry) : List Diagnostic :=
  (w.quiet.addEntry rules entry).diagnostics

/-- The findings that entries make, one entry after another. -/
def findingsBy (rules : Rules) (w : Walk) : List Entry → List (List Diagnostic)
  | [] => []
  | entry :: rest => w.findingsOf rules entry :: findingsBy rules (w.addEntry rules entry) rest

/-- The findings of closing what is open behind the last entry. -/
def closingFindings (rules : Rules) (entries : List Entry) : List Diagnostic :=
  ((entries.foldl (addEntry rules) (start rules)).quiet.closeScopes 0).diagnostics

theorem addEntry_quiet (rules : Rules) (w : Walk) (entry : Entry) :
    w.addEntry rules entry = (w.quiet.addEntry rules entry).after w.diagnostics := by
  conv => lhs; rw [← after_quiet w]
  rw [addEntry_after]

theorem diagnostics_addEntry (rules : Rules) (w : Walk) (entry : Entry) :
    (w.addEntry rules entry).diagnostics = w.diagnostics ++ w.findingsOf rules entry := by
  rw [addEntry_quiet]
  rfl

theorem diagnostics_foldl (rules : Rules) (w : Walk) (entries : List Entry) :
    (entries.foldl (addEntry rules) w).diagnostics =
      w.diagnostics ++ (w.findingsBy rules entries).flatten := by
  induction entries generalizing w with
  | nil => simp [findingsBy]
  | cons entry rest ih =>
    rw [List.foldl_cons, ih, diagnostics_addEntry, findingsBy, List.flatten_cons,
      List.append_assoc]

/-- The findings of a walk are those of its entries, and then those of closing what is open. -/
theorem diagnostics_run (rules : Rules) (entries : List Entry) :
    (run rules entries).diagnostics =
      ((start rules).findingsBy rules entries).flatten ++ closingFindings rules entries := by
  have hclose : ∀ w : Walk, (w.closeScopes 0).diagnostics =
      w.diagnostics ++ (w.quiet.closeScopes 0).diagnostics := by
    intro w
    conv => lhs; rw [← after_quiet w]
    rw [closeScopes_after]
    rfl
  rw [run, hclose, diagnostics_foldl]
  rfl

/-! ## What findings are about -/

/-- All findings are marked at the given span, but for the one about the size of the record. -/
def Concerns (w : Walk) (span : Span) : Prop :=
  ∀ d ∈ w.diagnostics, d.code ≠ some .recordTooLarge → d.primarySpan? = some span

namespace Concerns

variable {w : Walk} {span : Span}

theorem report (h : w.Concerns span) {d : Diagnostic} (hd : d.primarySpan? = some span) :
    (w.report d).Concerns span := by
  intro e he hc
  rcases List.mem_append.1 he with he | he
  · exact h e he hc
  · rwa [List.mem_singleton.1 he]

theorem bound (h : w.Concerns span) (next : Option Nat) (name : String) (span' : Span) :
    (w.bound next name span').2.Concerns span := by
  obtain ⟨n, -, -, hb⟩ | ⟨-, hb⟩ := bound_cases w next name span'
  · rwa [hb]
  · rw [hb]
    unfold overflow
    split
    · exact h
    · intro e he hc
      rcases List.mem_append.1 he with he | he
      · exact h e he hc
      · rw [List.mem_singleton.1 he] at hc
        exact absurd rfl hc

theorem close (h : w.Concerns span) (s : Scope) : (w.close s).Concerns span := by
  cases s with
  | overlay overlay outer => exact h
  | group group outer =>
    cases hs : w.slots[group.index]? with
    | none =>
      simp only [Walk.close, closeGroup, hs]
      exact h
    | some slot =>
      rw [Walk.close, closeGroup_of_some outer hs]
      exact h.bound _ _ _

theorem closeScopes (h : w.Concerns span) (level : Nat) : (w.closeScopes level).Concerns span :=
  closeScopes_induct (P := fun v => v.Concerns span) (fun _ s _ hv => hv.close s) h

theorem redefine (h : w.Concerns span) (rules : Rules) (d : Entry.Descriptor) :
    (w.redefine rules d span).2.Concerns span := by
  unfold Walk.redefine
  split
  · split
    · unfold openOverlay
      split
      · exact h.report rfl
      · split
        · dsimp only
          split
          · exact h.report rfl
          · exact h
        · exact h
    · exact h
  · exact h

theorem resolveUsage (h : w.Concerns span) (rules : Rules) (usage : Option String)
    (name : String) : (w.resolveUsage rules usage name span).2.Concerns span := by
  unfold Walk.resolveUsage
  split
  · exact h
  · exact h.report rfl

theorem declare {x : Declaration} (h : w.Concerns x.entry.span) (rules : Rules) :
    (w.declare rules x).Concerns x.entry.span := by
  have hr := h.redefine rules x.descriptor
  unfold Walk.declare
  dsimp only
  split
  · exact hr
  · rw [addElementary_eq]
    exact (hr.resolveUsage rules _ _).bound _ _ _

theorem addCondition {entry : Entry} (h : w.Concerns entry.span) (rules : Rules)
    (d : Entry.Descriptor) : (w.addCondition rules d entry).Concerns entry.span := by
  unfold Walk.addCondition
  split
  · exact h
  · split
    · exact h.report rfl
    · exact h

/-- An entry makes findings about itself. -/
theorem addEntry {entry : Entry} (h : w.Concerns entry.span) (rules : Rules) :
    (w.addEntry rules entry).Concerns entry.span := by
  have hfield : ∀ d, (w.addField rules d entry).Concerns entry.span := fun d =>
    (h.closeScopes d.level).declare (x := ⟨d, entry⟩) rules
  unfold Walk.addEntry
  cases hs : Entry.scan entry.text entry.span with
  | error d =>
    refine h.report ?_
    unfold Entry.scan at hs
    split at hs
    · cases hs
    · split at hs
      · cases hs
      · cases hs
        rfl
  | ok scanned =>
    cases scanned with
    | none => exact h
    | some d =>
      dsimp only
      cases d.kind with
      | condition => exact h.addCondition rules d
      | group => exact hfield d
      | elementary => exact hfield d

end Concerns

/-- A walk without findings. -/
theorem concerns_quiet (w : Walk) (span : Span) : w.quiet.Concerns span := by
  intro d hd
  cases hd

theorem primarySpan?_of_mem_findingsOf {rules : Rules} {w : Walk} {entry : Entry} {d : Diagnostic}
    (h : d ∈ w.findingsOf rules entry) (hc : d.code ≠ some .recordTooLarge) :
    d.primarySpan? = some entry.span :=
  (concerns_quiet w entry.span).addEntry rules d h hc

/-- Each finding of a walk that is not about the size of the record is made by an entry, where that
stands. -/
theorem exists_entry_of_mem_run {rules : Rules} {entries : List Entry} {d : Diagnostic}
    (h : d ∈ (run rules entries).diagnostics) (hc : d.code ≠ some .recordTooLarge) :
    ∃ entry ds, (entry, ds) ∈ entries.zip ((start rules).findingsBy rules entries) ∧ d ∈ ds ∧
      d.primarySpan? = some entry.span := by
  have hby : ∀ w : Walk, d ∈ (w.findingsBy rules entries).flatten →
      ∃ entry ds, (entry, ds) ∈ entries.zip (w.findingsBy rules entries) ∧ d ∈ ds ∧
        d.primarySpan? = some entry.span := by
    clear h
    induction entries with
    | nil =>
      intro w h
      simp [findingsBy] at h
    | cons entry rest ih =>
      intro w h
      rw [findingsBy, List.flatten_cons, List.mem_append] at h
      rw [findingsBy, List.zip_cons_cons]
      rcases h with h | h
      · exact ⟨entry, _, List.mem_cons_self, h, primarySpan?_of_mem_findingsOf h hc⟩
      · obtain ⟨e, ds, hm, hd, hs⟩ := ih _ h
        exact ⟨e, ds, List.mem_cons_of_mem _ hm, hd, hs⟩
  rw [diagnostics_run, List.mem_append] at h
  rcases h with h | h
  · exact hby _ h
  · -- Nothing but the size is reported on closing, wherever that is marked.
    have hclose := (concerns_quiet (entries.foldl (addEntry rules) (start rules))
      ⟨0, 0, Nat.le_refl 0⟩).closeScopes 0 d h hc
    have hclose' := (concerns_quiet (entries.foldl (addEntry rules) (start rules))
      ⟨0, 1, Nat.zero_le 1⟩).closeScopes 0 d h hc
    rw [hclose] at hclose'
    cases hclose'

end DataDivision.Record.Walk
