import DataDivision.Proofs.Record.Neutrality

/-!
Walks over declarations.

The data items of a record are laid out by its declarations alone (`data_run`).  Condition names,
rejected entries and what is no entry make findings at most.  So what holds of the data items can be
proved by induction over the declarations, where the index of an item is that of its declaration.
-/

namespace DataDivision.Record.Walk

/-- Closes what a declaration ends, and adds it. -/
def addDeclaration (rules : Rules) (w : Walk) (x : Declaration) : Walk :=
  (w.closeScopes x.descriptor.level).declare rules x

/-- The walk over some declarations, with everything closed. -/
def runDeclarations (rules : Rules) (xs : List Declaration) : Walk :=
  (xs.foldl (addDeclaration rules) (start rules)).closeScopes 0

/-! ## Findings do not matter -/

section

variable {w v : Walk}

theorem quiet_closeScopes (w : Walk) (level : Nat) :
    (w.closeScopes level).quiet = (w.quiet.closeScopes level).quiet := by
  conv => lhs; rw [← after_quiet w]
  rw [closeScopes_after]
  rfl

theorem quiet_addDeclaration (rules : Rules) (w : Walk) (x : Declaration) :
    (w.addDeclaration rules x).quiet = (w.quiet.addDeclaration rules x).quiet := by
  unfold addDeclaration
  conv => lhs; rw [← after_quiet w]
  rw [closeScopes_after, declare_after]
  rfl

/-- Walks that differ by their findings go on alike. -/
theorem quiet_foldl_addDeclaration (rules : Rules) (h : w.quiet = v.quiet)
    (xs : List Declaration) :
    (xs.foldl (addDeclaration rules) w).quiet = (xs.foldl (addDeclaration rules) v).quiet := by
  induction xs generalizing w v with
  | nil => exact h
  | cons x rest ih =>
    refine ih ?_
    rw [quiet_addDeclaration rules w, quiet_addDeclaration rules v, h]

/-! ## Entries and declarations -/

/-- An entry does among the data items what its declaration does there. -/
theorem quiet_data_addEntry (rules : Rules) (h : w.Rooted) (hn : w.Nested) (entry : Entry) :
    (w.addEntry rules entry).data.quiet =
      (entry.declaration?.toList.foldl (addDeclaration rules) w.data).quiet := by
  obtain ⟨hx, ha | ⟨d, -, ha⟩ | ⟨d, i, slot, hk, -, -, ha⟩⟩ | ⟨x, hx, hk, ha⟩ :=
    addEntry_cases rules w entry <;> rw [ha, hx]
  · rfl
  · rfl
  · rw [(h.inRange hn).data_push_condition (isCondition_conditionOf hk entry.line i slot)]
    rfl
  · have hroot := stepInvariant_rooted.closeScopes hn x.descriptor.level h
    rw [hroot.data_declare (hn.closeScopes _) rules hk, data_closeScopes hn]
    rfl

theorem quiet_data_foldl (rules : Rules) (h : w.Rooted) (hn : w.Nested) (entries : List Entry) :
    (entries.foldl (addEntry rules) w).data.quiet =
      ((entries.filterMap Entry.declaration?).foldl (addDeclaration rules) w.data).quiet := by
  induction entries generalizing w with
  | nil => rfl
  | cons entry rest ih =>
    have hsplit : (entry :: rest).filterMap Entry.declaration? =
        entry.declaration?.toList ++ rest.filterMap Entry.declaration? := by
      cases hx : entry.declaration? <;> simp [hx]
    rw [List.foldl_cons, ih (stepInvariant_rooted.addEntry hn rules entry h)
      (hn.addEntry rules entry), hsplit, List.foldl_append]
    exact quiet_foldl_addDeclaration rules (quiet_data_addEntry rules h hn entry) _

/-- The data items of a walk are laid out by its declarations. -/
theorem data_run (rules : Rules) (entries : List Entry) :
    (run rules entries).data.quiet =
      (runDeclarations rules (entries.filterMap Entry.declaration?)).quiet := by
  have hn := (Nested.start rules).foldl rules entries
  have hfold := quiet_data_foldl rules (rooted_start rules) (.start rules) entries
  have hstart : (start rules).data = start rules := rfl
  rw [run, data_closeScopes hn, quiet_closeScopes, hfold, hstart, ← quiet_closeScopes,
    runDeclarations]

theorem dataFields_run (rules : Rules) (entries : List Entry) :
    dataFields id (run rules entries).fields =
      (runDeclarations rules (entries.filterMap Entry.declaration?)).fields := by
  rw [← fields_data]
  have hfields : (run rules entries).data.quiet.fields = _ :=
    congrArg fields (data_run rules entries)
  exact hfields

end

/-! ## Induction over declarations -/

theorem Nested.addDeclaration {w : Walk} (h : w.Nested) (rules : Rules) (x : Declaration) :
    (w.addDeclaration rules x).Nested :=
  (h.closeScopes _).declare rules x (nextScope?_closeScopes _ w)

/-- The declarations of some entries are those of groups and elementary items. -/
theorem kind_of_mem_declarations {entries : List Entry} {x : Declaration}
    (h : x ∈ entries.filterMap Entry.declaration?) : x.descriptor.kind ≠ .condition := by
  obtain ⟨e, -, hx⟩ := List.mem_filterMap.1 h
  unfold Entry.declaration? at hx
  split at hx
  · split at hx
    · cases hx
    · cases hx
      assumption
  · cases hx

/-- What holds at the start and is kept by every declaration holds after all of them. -/
theorem declarations_induct {P : List Declaration → Walk → Prop} {rules : Rules}
    (hstart : P [] (start rules))
    (hadd : ∀ xs w x, x.descriptor.kind ≠ .condition → w.Nested → P xs w →
      P (xs ++ [x]) (w.addDeclaration rules x))
    {xs : List Declaration} (hk : ∀ x ∈ xs, x.descriptor.kind ≠ .condition) :
    (xs.foldl (addDeclaration rules) (start rules)).Nested ∧
      P xs (xs.foldl (addDeclaration rules) (start rules)) := by
  have hfold : ∀ (done : List Declaration) (w : Walk), w.Nested → P done w →
      (xs.foldl (addDeclaration rules) w).Nested ∧
        P (done ++ xs) (xs.foldl (addDeclaration rules) w) := by
    induction xs with
    | nil => exact fun done w hn h => ⟨hn, by rwa [List.append_nil]⟩
    | cons x rest ih =>
      intro done w hn h
      rw [List.append_cons]
      exact ih (fun y hy => hk y (List.mem_cons_of_mem _ hy)) _ _ (hn.addDeclaration rules x)
        (hadd done w x (hk x List.mem_cons_self) hn h)
  exact hfold [] (start rules) (.start rules) hstart

end DataDivision.Record.Walk
