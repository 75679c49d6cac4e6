import DataDivision.Proofs.Record.Placing

/-!
Findings about usages.

A walk reports a usage once for each elementary item whose usage the rules do not map, in the order
of the items, and for nothing else (`unknownUsages_run`).  Condition names, groups and rejected
entries make other findings.
-/

namespace DataDivision

/-- The finding is that a usage is not mapped. -/
def Diagnostic.isUnknownUsage (d : Diagnostic) : Bool := d.code == some .unknownUsage

theorem Entry.isUnknownUsage_of_scan {text : List Char} {span : Span} {d : Diagnostic}
    (h : Entry.scan text span = .error d) : d.isUnknownUsage = false := by
  unfold Entry.scan at h
  split at h
  · cases h
  · split at h
    · cases h
    · rename_i r _
      cases h
      cases r <;> rfl

namespace Record

/-- The finding about the usage of the item in a slot, if it is elementary and has no encoding. -/
def Slot.unknownUsage? (rules : Rules) (slot : Slot) : Option Diagnostic :=
  if slot.field.isElementary = true ∧ rules.usages.resolve slot.field.usage = none then
    some (Walk.unknownUsage slot.field.usage slot.field.name slot.span)
  else none

theorem Slot.unknownUsage?_of_isElementary {rules : Rules} {slot : Slot}
    (h : slot.field.isElementary = false) : slot.unknownUsage? rules = none :=
  if_neg fun he => by simp [h] at he

namespace Walk

variable {rules : Rules} {w : Walk}

theorem filter_report {d : Diagnostic} (hd : d.isUnknownUsage = false) :
    (w.report d).diagnostics.filter Diagnostic.isUnknownUsage =
      w.diagnostics.filter Diagnostic.isUnknownUsage := by
  simp [report, List.filter_append, hd]

theorem filter_bound (w : Walk) (next : Option Nat) (name : String) (span : Span) :
    (w.bound next name span).2.diagnostics.filter Diagnostic.isUnknownUsage =
      w.diagnostics.filter Diagnostic.isUnknownUsage := by
  obtain ⟨n, -, -, hb⟩ | ⟨-, hb⟩ := bound_cases w next name span
  · rw [hb]
  · rw [hb]
    unfold overflow
    split
    · rfl
    · exact filter_report (d := tooLargeDiagnostic name span) rfl

/-- The findings about usages are those about the items laid out so far. -/
def ReportsUsages (rules : Rules) (w : Walk) : Prop :=
  w.diagnostics.filter Diagnostic.isUnknownUsage = w.slots.filterMap (Slot.unknownUsage? rules)

namespace ReportsUsages

theorem report (h : w.ReportsUsages rules) {d : Diagnostic} (hd : d.isUnknownUsage = false) :
    (w.report d).ReportsUsages rules :=
  (filter_report hd).trans h

theorem bound (h : w.ReportsUsages rules) (next : Option Nat) (name : String) (span : Span) :
    (w.bound next name span).2.ReportsUsages rules := by
  rw [ReportsUsages, filter_bound, slots_bound]
  exact h

/-- Nothing is found about the usage of what is no elementary item. -/
theorem push (h : w.ReportsUsages rules) {field : Field} (hf : field.isElementary = false)
    (span : Span) : (w.push field span).ReportsUsages rules := by
  have hnone : [(⟨field, w.cursor, span⟩ : Slot)].filterMap (Slot.unknownUsage? rules) = [] := by
    simp [Slot.unknownUsage?, hf]
  rw [ReportsUsages, slots_push, List.filterMap_append, hnone, List.append_nil]
  exact h

theorem finishGroup (h : w.ReportsUsages rules) {index : Nat} {slot : Slot}
    (hi : w.slots[index]? = some slot) (hg : slot.field.isGroup = true) (next : Nat)
    (outer : List OpenGroup) : (w.finishGroup index slot next outer).ReportsUsages rules := by
  have hnone : ∀ s : Slot, s.field.isGroup = true → s.unknownUsage? rules = none := fun s hs =>
    Slot.unknownUsage?_of_isElementary (Field.isElementary_of_isGroup hs)
  have hsame : (slot.closed next).unknownUsage? rules = slot.unknownUsage? rules :=
    (hnone (slot.closed next) hg).trans (hnone slot hg).symm
  obtain ⟨hlt, hget⟩ := List.getElem?_eq_some_iff.1 hi
  have hmap : (w.slots.set index (slot.closed next)).map (Slot.unknownUsage? rules) =
      w.slots.map (Slot.unknownUsage? rules) := by
    rw [List.map_set, hsame, ← List.map_set, ← hget, List.set_getElem_self hlt]
  have hfindings := congrArg (List.filterMap id) hmap
  rw [List.filterMap_map, List.filterMap_map] at hfindings
  exact h.trans hfindings.symm

theorem close (h : w.ReportsUsages rules) (hn : w.Nested) {level : Nat} {s : Scope}
    (hs : nextScope? level w.groups w.overlays = some s) : (w.close s).ReportsUsages rules := by
  cases s with
  | overlay overlay outer => exact h
  | group group outer =>
    obtain ⟨slot, hi, hg, -⟩ := hn.start_le_cursor hs
    rw [Walk.close, closeGroup_of_some outer hi]
    exact (h.bound _ _ _).finishGroup (by simpa using hi) hg _ _

theorem closeScopes (h : w.ReportsUsages rules) (hn : w.Nested) (level : Nat) :
    (w.closeScopes level).ReportsUsages rules :=
  (closeScopes_induct (P := fun v => v.Nested ∧ v.ReportsUsages rules)
    (fun _ _ hs hv => ⟨hv.1.close hs, hv.2.close hv.1 hs⟩) ⟨hn, h⟩).2

theorem redefine (h : w.ReportsUsages rules) (d : Entry.Descriptor) (span : Span) :
    (w.redefine rules d span).2.ReportsUsages rules := by
  unfold Walk.redefine
  split
  · split
    · unfold openOverlay
      split
      · exact h.report rfl
      · split
        · dsimp only
          split
          · exact h.report (d := levelMismatch d span _) rfl
          · exact h
        · exact h
    · exact h
  · exact h

/-- An elementary item is reported if its usage has no encoding. -/
theorem addElementary (h : w.ReportsUsages rules) (d : Entry.Descriptor) (entry : Entry)
    {field : Field} (hf : field.isElementary = true) (hname : field.name = d.name)
    (usage : Option String) : (w.addElementary rules d entry field usage).ReportsUsages rules := by
  rw [addElementary_eq]
  dsimp only
  have hresolved : (w.resolveUsage rules usage d.name entry.span).2.diagnostics.filter
        Diagnostic.isUnknownUsage = w.diagnostics.filter Diagnostic.isUnknownUsage ++
          if rules.usages.resolve usage = none then [unknownUsage usage d.name entry.span] else [] := by
    unfold Walk.resolveUsage
    cases rules.usages.resolve usage with
    | some encoding => simp
    | none => simp [Walk.report, Diagnostic.isUnknownUsage, unknownUsage, Diagnostic.about]
  have hslots := slots_resolveUsage rules usage d.name entry.span w
  generalize w.resolveUsage rules usage d.name entry.span = resolved at hresolved hslots ⊢
  rw [ReportsUsages, finishElementary, slots_push, List.filterMap_append]
  refine (filter_bound _ _ _ _).trans (hresolved.trans ?_)
  rw [slots_bound, hslots, h, List.filterMap_cons, List.filterMap_nil]
  congr 1
  have hplaced : ∀ encoding start length, ({ field with usage := usage, encoding := encoding }.place
      start length).isElementary = true := fun _ _ _ => hf
  simp only [Slot.unknownUsage?, hplaced, true_and]
  cases hu : rules.usages.resolve usage with
  | some encoding => simp [Field.place, hu]
  | none => simp [Field.place, hu, hname]

theorem declare (h : w.ReportsUsages rules) {x : Declaration}
    (hk : x.descriptor.kind ≠ .condition) :
    (w.declare rules x).ReportsUsages rules := by
  have hr := h.redefine x.descriptor x.entry.span
  have hkind := kind_fieldOf w x (w.redefine rules x.descriptor x.entry.span).1
  unfold Walk.declare
  cases hd : x.descriptor.kind with
  | condition => exact absurd hd hk
  | group =>
    refine hr.push ?_ x.entry.span
    simp [Field.isElementary, Field.setExtent, hkind, hd]
  | elementary =>
    have hf : (w.fieldOf x (w.redefine rules x.descriptor x.entry.span).1).isElementary = true := by
      simp [Field.isElementary, hkind, hd]
    exact hr.addElementary x.descriptor x.entry hf (name_ofDescriptor _ _) _

theorem addCondition (h : w.ReportsUsages rules) {d : Entry.Descriptor} (hk : d.kind = .condition)
    (entry : Entry) : (w.addCondition rules d entry).ReportsUsages rules := by
  unfold Walk.addCondition
  split
  · exact h
  · split
    · exact h.report rfl
    · refine h.push ?_ entry.span
      simp [Field.isElementary, Field.setExtent, kind_ofDescriptor, hk]

theorem addEntry (h : w.ReportsUsages rules) (hn : w.Nested) (entry : Entry) :
    (w.addEntry rules entry).ReportsUsages rules := by
  have hfield : ∀ d : Entry.Descriptor, d.kind ≠ .condition →
      (w.addField rules d entry).ReportsUsages rules := fun d hk =>
    (h.closeScopes hn d.level).declare (x := ⟨d, entry⟩) hk
  unfold Walk.addEntry
  cases hs : Entry.scan entry.text entry.span with
  | error d => exact h.report (Entry.isUnknownUsage_of_scan hs)
  | ok scanned =>
    cases scanned with
    | none => exact h
    | some d =>
      dsimp only
      cases hd : d.kind with
      | condition => exact h.addCondition hd entry
      | group => exact hfield d (by simp [hd])
      | elementary => exact hfield d (by simp [hd])

end ReportsUsages

/-- A walk reports the usages of its elementary items that have no encoding. -/
theorem unknownUsages_run (rules : Rules) (entries : List Entry) :
    (run rules entries).diagnostics.filter Diagnostic.isUnknownUsage =
      (run rules entries).slots.filterMap (Slot.unknownUsage? rules) := by
  have hfold : ∀ w : Walk, w.Nested → w.ReportsUsages rules →
      (entries.foldl (addEntry rules) w).ReportsUsages rules := by
    induction entries with
    | nil => exact fun w _ h => h
    | cons entry rest ih =>
      exact fun w hn h => ih _ (hn.addEntry rules entry) (h.addEntry hn entry)
  exact (hfold (start rules) (.start rules) rfl).closeScopes
    ((Nested.start rules).foldl rules entries)
    0

end Walk

end Record

end DataDivision
