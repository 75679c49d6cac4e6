import DataDivision.Proofs.Record.Arena
import DataDivision.Proofs.Record.Frontier

/-!
Bytes behind bytes.

A data item that begins where no redefinition is open stands behind the bytes of everything declared
before it (`starts_behind_bytes`).  Whether a redefinition is open can be read off the levels alone:
an open one has a field in the record, and all that has been declared since is deeper (`Traced`).
The rest is the frontier of the walk, which all bytes are before.
-/

namespace DataDivision.Record

/-! ## Fields as they are declared -/

/-- The field as its declaration makes it: a group has no bytes until it is closed. -/
def declaredAs (f : Field) : Field :=
  if f.isGroup then f.setExtent f.startPosition f.startPosition else f

section

variable (f : Field)

@[simp] theorem isCondition_declaredAs : (declaredAs f).isCondition = f.isCondition := by
  unfold declaredAs
  split <;> rfl

@[simp] theorem level_declaredAs : (declaredAs f).level = f.level := by
  unfold declaredAs
  split <;> rfl

@[simp] theorem redefinesTarget_declaredAs :
    (declaredAs f).redefinesTarget = f.redefinesTarget := by
  unfold declaredAs
  split <;> rfl

@[simp] theorem startPosition_declaredAs : (declaredAs f).startPosition = f.startPosition := by
  unfold declaredAs
  split <;> rfl

end

/-- An item with bytes has them from the start. -/
theorem declaredAs_of_hasBytes {f : Field} (h : f.HasBytes) : declaredAs f = f := by
  refine if_neg fun hg => ?_
  have he := Field.isElementary_of_isGroup hg
  rw [h.1] at he
  cases he

theorem hasBytes_declaredAs {f : Field} : (declaredAs f).HasBytes ↔ f.HasBytes := by
  constructor
  · intro h
    unfold declaredAs at h
    split at h
    · exact absurd h.2 (Nat.lt_irrefl 0)
    · exact h
  · intro h
    rwa [declaredAs_of_hasBytes h]

theorem Slot.declaredAs_closed {slot : Slot} (h : slot.field.isGroup = true) (next : Nat) :
    declaredAs (slot.closed next).field = declaredAs slot.field := by
  have hc : (slot.closed next).field.isGroup = true := h
  simp only [declaredAs, h, hc, ↓reduceIte]
  rfl

/-! ## Redefinitions closed by level -/

/-- Every redefinition among the fields before an index is closed there: a data item of its level or
of a higher one has been declared since. -/
def IsClosedAt (fields : List Field) (i : Nat) : Prop :=
  ∀ j < i, ∀ g ∈ fields[j]?, g.redefinesTarget.isSome = true →
    ∃ k ≤ i, j < k ∧ ∃ h ∈ fields[k]?, h.isCondition = false ∧ h.level ≤ g.level

instance (fields : List Field) (i : Nat) : Decidable (IsClosedAt fields i) :=
  inferInstanceAs (Decidable (∀ j < i, ∀ g ∈ fields[j]?, g.redefinesTarget.isSome = true →
    ∃ k ≤ i, j < k ∧ ∃ h ∈ fields[k]?, h.isCondition = false ∧ h.level ≤ g.level))

/-- Every data item with bytes before an index ends before the given position. -/
def EndsBefore (fields : List Field) (i position : Nat) : Prop :=
  ∀ j < i, ∀ e ∈ fields[j]?, e.HasBytes → e.endPosition < position

section

variable {fields : List Field} {field : Field} {i : Nat}

/-- Whether redefinitions are closed at a field does not depend on later fields. -/
theorem IsClosedAt.of_snoc (hi : i < fields.length) (h : IsClosedAt (fields ++ [field]) i) :
    IsClosedAt fields i := by
  have hget : ∀ j ≤ i, (fields ++ [field])[j]? = fields[j]? := fun j hj =>
    List.getElem?_append_left (by omega)
  intro j hj g hg hr
  obtain ⟨k, hk, hjk, f, hf, hc, hl⟩ := h j hj g (hget j (Nat.le_of_lt hj) ▸ hg) hr
  exact ⟨k, hk, hjk, f, hget k hk ▸ hf, hc, hl⟩

theorem EndsBefore.snoc {position : Nat} (hi : i ≤ fields.length)
    (h : EndsBefore fields i position) : EndsBefore (fields ++ [field]) i position := by
  intro j hj e he hb
  rw [List.getElem?_append_left (by omega)] at he
  exact h j hj e he hb

/-- Redefinitions are closed and fields end as they are declared. -/
theorem isClosedAt_map_declaredAs (h : IsClosedAt fields i) :
    IsClosedAt (fields.map declaredAs) i := by
  intro j hj g hg hr
  rw [List.getElem?_map, Option.mem_def, Option.map_eq_some_iff] at hg
  obtain ⟨g, hg, rfl⟩ := hg
  obtain ⟨k, hk, hjk, f, hf, hc, hl⟩ := h j hj g hg (by simpa using hr)
  refine ⟨k, hk, hjk, declaredAs f, ?_, by simpa using hc, by simpa using hl⟩
  rw [List.getElem?_map, hf]
  rfl

theorem endsBefore_map_declaredAs {position : Nat} :
    EndsBefore (fields.map declaredAs) i position ↔ EndsBefore fields i position := by
  constructor
  · intro h j hj e he hb
    have := h j hj (declaredAs e) (by rw [List.getElem?_map, he]; rfl) (hasBytes_declaredAs.2 hb)
    rwa [declaredAs_of_hasBytes hb] at this
  · intro h j hj e he hb
    rw [List.getElem?_map, Option.mem_def, Option.map_eq_some_iff] at he
    obtain ⟨e, he, rfl⟩ := he
    rw [hasBytes_declaredAs] at hb
    rw [declaredAs_of_hasBytes hb]
    exact h j hj e he hb

end

namespace Walk

/-! ## Open redefinitions -/

/-- The fields of a walk as they were declared. -/
def declared (w : Walk) : List Field := w.fields.map declaredAs

section

variable {w u v : Walk}

theorem length_declared (w : Walk) : w.declared.length = w.slots.length := by
  rw [declared, fields, List.length_map, List.length_map]

theorem declared_snoc {slot : Slot} (h : u.slots = w.slots ++ [slot]) :
    u.declared = w.declared ++ [declaredAs slot.field] := by
  simp only [declared, fields_snoc h, List.map_append, List.map_singleton]

/-- A group that closes is declared as before. -/
theorem Closes.declared_eq {group : OpenGroup} {slot : Slot} {next : Nat}
    (h : Closes w u group slot next) : u.declared = w.declared := by
  obtain ⟨hlt, hget⟩ := List.getElem?_eq_some_iff.1 h.slot_eq
  have hslot : w.slots.set group.index slot = w.slots := hget ▸ List.set_getElem_self hlt
  simp only [declared, fields, List.map_map, h.slots_eq]
  calc (w.slots.set group.index (slot.closed next)).map (declaredAs ∘ Slot.field)
      = (w.slots.map (declaredAs ∘ Slot.field)).set group.index (declaredAs slot.field) := by
        rw [List.map_set, Function.comp_apply, Slot.declaredAs_closed h.isGroup]
    _ = (w.slots.set group.index slot).map (declaredAs ∘ Slot.field) := List.map_set.symm
    _ = w.slots.map (declaredAs ∘ Slot.field) := by rw [hslot]

end

/-- A redefinition that is open has a field, and all data items declared since are deeper. -/
def Traced (w : Walk) : Prop :=
  ∀ overlay ∈ w.overlays, ∃ (j : Nat) (g : Field), w.declared[j]? = some g ∧
    g.redefinesTarget.isSome = true ∧ g.level = overlay.level ∧
    ∀ (k : Nat) (h : Field), j < k → w.declared[k]? = some h → h.isCondition = false →
      overlay.level < h.level

namespace Traced

variable {w u v : Walk}

theorem of_eq (h : w.Traced) (hd : u.declared = w.declared)
    (ho : ∀ overlay ∈ u.overlays, overlay ∈ w.overlays) : u.Traced := by
  intro overlay hm
  rw [hd]
  exact h overlay (ho overlay hm)

/-- What is added at the end is a condition name or deeper than what stays open. -/
theorem old_snoc (h : w.Traced) {field : Field} (hd : u.declared = w.declared ++ [field])
    {overlay : OpenOverlay} (hm : overlay ∈ w.overlays)
    (hl : field.isCondition = false → overlay.level < field.level) :
    ∃ (j : Nat) (g : Field), u.declared[j]? = some g ∧ g.redefinesTarget.isSome = true ∧
      g.level = overlay.level ∧ ∀ (k : Nat) (f : Field), j < k → u.declared[k]? = some f →
        f.isCondition = false → overlay.level < f.level := by
  obtain ⟨j, g, hg, hr, hgl, hlater⟩ := h overlay hm
  obtain ⟨hj, -⟩ := List.getElem?_eq_some_iff.1 hg
  refine ⟨j, g, ?_, hr, hgl, fun k f hk hf hc => ?_⟩
  · rwa [hd, List.getElem?_append_left hj]
  · rcases Nat.lt_or_ge k w.declared.length with hlt | hge
    · rw [hd, List.getElem?_append_left hlt] at hf
      exact hlater k f hk hf hc
    · rw [hd, List.getElem?_append_right hge, List.getElem?_singleton] at hf
      split at hf
      · obtain rfl := Option.some.inj hf
        exact hl hc
      · cases hf

theorem condition (h : w.Traced) {d : Entry.Descriptor} (hk : d.kind = .condition) (line i : Nat)
    (slot : Slot) (span : Span) : (w.push (conditionOf d line i slot) span).Traced := by
  intro overlay hm
  refine h.old_snoc (declared_snoc (slots_push w _ span)) hm fun hc => ?_
  rw [isCondition_declaredAs, isCondition_conditionOf hk] at hc
  cases hc

theorem places (h : w.Traced) (hn : w.Nested) {x : Declaration} {target : Option Nat} {slot : Slot}
    (hscope : nextScope? x.descriptor.level w.groups w.overlays = none)
    (hp : Places w u x target v slot) : u.Traced := by
  have hd := declared_snoc hp.slots_eq
  have hdeeper := (hn.levels_lt hscope).2
  have hold : ∀ overlay ∈ w.overlays, overlay.level < (declaredAs slot.field).level := by
    intro overlay hm
    rw [level_declaredAs, hp.level_eq]
    exact hdeeper overlay hm
  have htarget := hp.target_eq
  have hlevel := hp.level_eq
  have hoverlays := hp.overlays_eq
  cases hp.rewinds with
  | stay =>
    intro overlay hm
    rw [hoverlays] at hm
    exact h.old_snoc hd hm fun _ => hold overlay hm
  | back =>
    intro overlay hm
    rcases List.mem_cons.1 (hoverlays ▸ hm) with rfl | hm
    · refine ⟨w.declared.length, declaredAs slot.field, ?_, ?_, ?_, fun k f hk hf => ?_⟩
      · rw [hd, List.getElem?_concat_length]
      · rw [redefinesTarget_declaredAs, htarget]
        rfl
      · rw [level_declaredAs, hlevel]
      · obtain ⟨hlt, -⟩ := List.getElem?_eq_some_iff.1 hf
        rw [hd, List.length_append, List.length_singleton] at hlt
        omega
    · exact h.old_snoc hd hm fun _ => hold overlay hm

/-- Where all redefinitions are closed by level, none is open. -/
theorem overlays_eq_nil (h : w.Traced) (hn : w.Nested) {x : Declaration} {target : Option Nat}
    {slot : Slot} (hscope : nextScope? x.descriptor.level w.groups w.overlays = none)
    (hp : Places w u x target v slot) (hs : IsClosedAt u.declared w.slots.length) :
    w.overlays = [] := by
  have hd := declared_snoc hp.slots_eq
  refine List.eq_nil_iff_forall_not_mem.2 fun overlay hm => ?_
  obtain ⟨j, g, hg, hr, hgl, hlater⟩ := h overlay hm
  obtain ⟨hj, -⟩ := List.getElem?_eq_some_iff.1 hg
  have hg' : u.declared[j]? = some g := by rwa [hd, List.getElem?_append_left hj]
  obtain ⟨k, hk, hjk, f, hf, hc, hl⟩ := hs j (length_declared w ▸ hj) g hg' hr
  -- The item that closes the redefinition is an earlier one or the one that is placed.
  rcases Nat.lt_or_ge k w.declared.length with hlt | hge
  · rw [hd, Option.mem_def, List.getElem?_append_left hlt] at hf
    have := hlater k f hjk hf hc
    omega
  · rw [← length_declared] at hk
    obtain rfl : k = w.declared.length := Nat.le_antisymm hk hge
    rw [hd, Option.mem_def, List.getElem?_concat_length, Option.some.injEq] at hf
    have hdeeper := (hn.levels_lt hscope).2 overlay hm
    rw [← hf, level_declaredAs, hp.level_eq] at hl
    omega

end Traced

/-! ## Order of the bytes -/

/-- All bytes of a walk are before the frontier. -/
theorem Passed.endsBefore {w : Walk} (h : w.Passed) (i : Nat) :
    EndsBefore w.declared i w.frontier := by
  rw [declared, endsBefore_map_declaredAs]
  intro j hj e he hb
  obtain ⟨slot, hs, rfl⟩ := getElem?_fields.1 he
  exact h.end_lt slot (List.mem_of_getElem? hs) hb

/-- A data item that redefines nothing, declared where no redefinition is open, starts behind all
bytes. -/
def Ascends (w : Walk) : Prop :=
  ∀ (i : Nat) (f : Field), w.declared[i]? = some f → f.isCondition = false →
    f.redefinesTarget = none → IsClosedAt w.declared i → EndsBefore w.declared i f.startPosition

namespace Ascends

variable {w u v : Walk}

/-- What holds of the fields before holds of them still, so only the new one is in question. -/
theorem snoc (h : w.Ascends) {field : Field} (hd : u.declared = w.declared ++ [field])
    (hnew : field.isCondition = false → field.redefinesTarget = none →
      IsClosedAt u.declared w.slots.length →
        EndsBefore w.declared w.slots.length field.startPosition) : u.Ascends := by
  intro i f hf hc ht hs
  rcases Nat.lt_or_ge i w.declared.length with hlt | hge
  · rw [hd, List.getElem?_append_left hlt] at hf
    rw [hd] at hs ⊢
    exact (h i f hf hc ht (hs.of_snoc hlt)).snoc (Nat.le_of_lt hlt)
  · obtain ⟨hi, -⟩ := List.getElem?_eq_some_iff.1 hf
    rw [hd, List.length_append, List.length_singleton] at hi
    obtain rfl : i = w.declared.length := by omega
    rw [hd, List.getElem?_concat_length, Option.some.injEq] at hf
    subst hf
    rw [length_declared] at hs ⊢
    rw [hd]
    exact (hnew hc ht hs).snoc (Nat.le_of_eq (length_declared w).symm)

theorem places (h : w.Ascends) (hpassed : w.Passed) (htraced : w.Traced) (hn : w.Nested)
    {x : Declaration} {target : Option Nat} {slot : Slot}
    (hscope : nextScope? x.descriptor.level w.groups w.overlays = none)
    (hp : Places w u x target v slot) : u.Ascends := by
  refine h.snoc (declared_snoc hp.slots_eq) fun _ ht hs => ?_
  have hclosed := htraced.overlays_eq_nil hn hscope hp hs
  rw [redefinesTarget_declaredAs, hp.target_eq] at ht
  have hstart := hp.start_eq
  cases hp.rewinds with
  | stay =>
    rw [startPosition_declaredAs, hstart, ← frontier_of_overlays_nil hclosed]
    exact hpassed.endsBefore _
  | back => cases ht

end Ascends

/-- What the order of the bytes rests on. -/
structure Succeeds (w : Walk) : Prop where
  passed : w.Passed
  traced : w.Traced
  ascends : w.Ascends

theorem stepInvariant_succeeds : StepInvariant Succeeds where
  closes w u group slot next hn hc h := by
    refine ⟨stepInvariant_passed.closes w u group slot next hn hc h.passed,
      h.traced.of_eq hc.declared_eq fun overlay hm => hc.overlays_eq ▸ hm, ?_⟩
    rw [Ascends, hc.declared_eq]
    exact h.ascends
  settles w overlay outer hn ho h :=
    ⟨stepInvariant_passed.settles w overlay outer hn ho h.passed,
      h.traced.of_eq rfl fun _ hm => ho ▸ List.mem_cons_of_mem _ hm, h.ascends⟩
  report w d h := ⟨stepInvariant_passed.report w d h.passed, h.traced, h.ascends⟩
  condition w d line span i slot hk hn hl hi h := by
    refine ⟨stepInvariant_passed.condition w d line span i slot hk hn hl hi h.passed,
      h.traced.condition hk line i slot span, ?_⟩
    refine h.ascends.snoc (declared_snoc (slots_push w _ span)) fun hc => ?_
    rw [isCondition_declaredAs, isCondition_conditionOf hk] at hc
    cases hc
  places w u x target v slot hn hk hscope hp h :=
    ⟨stepInvariant_passed.places w u x target v slot hn hk hscope hp h.passed,
      h.traced.places hn hscope hp, h.ascends.places h.passed h.traced hn hscope hp⟩

theorem succeeds_run (rules : Rules) (entries : List Entry) : (run rules entries).Succeeds := by
  have h := stepInvariant_succeeds
  refine run_steps ⟨.start rules, ?_, ?_⟩ h.closes h.settles h.report h.condition h.places entries
  · intro overlay hm
    cases hm
  · intro i f hf
    cases hf

/-! ## Declarations and fields -/

/-- The lines and levels of the data items among some fields. -/
def outline (fields : List Field) : List (Nat × Nat) :=
  (fields.filter fun f => !f.isCondition).map fun f => (f.line, f.level)

theorem outline_map_declaredAs (fields : List Field) :
    outline (fields.map declaredAs) = outline fields := by
  have hline : ∀ f, (declaredAs f).line = f.line := by
    intro f
    unfold declaredAs
    split <;> rfl
  have hkept : (fun f => !f.isCondition) ∘ declaredAs = fun f => !f.isCondition :=
    funext fun f => by simp
  rw [outline, outline, List.filter_map, hkept, List.map_map]
  refine List.map_congr_left fun f _ => ?_
  simp [hline]

theorem declared_closeScopes {w : Walk} (hn : w.Nested) (level : Nat) :
    (w.closeScopes level).declared = w.declared := by
  refine (closeScopes_induct (P := fun v => v.Nested ∧ v.declared = w.declared) ?_ ⟨hn, rfl⟩).2
  intro v s hs hv
  refine ⟨hv.1.close hs, Eq.trans ?_ hv.2⟩
  cases s with
  | overlay overlay outer => rfl
  | group group outer =>
    obtain ⟨slot, next, hc⟩ := closes_close hv.1 hs
    exact hc.declared_eq

/-- An entry adds the data item that it declares, if any. -/
theorem outline_addEntry {w : Walk} (hn : w.Nested) (rules : Rules) (entry : Entry) :
    outline (w.addEntry rules entry).declared = outline w.declared ++
      (entry.declaration?.toList.map fun x => (x.entry.line, x.descriptor.level)) := by
  obtain ⟨hx, ha | ⟨d, -, ha⟩ | ⟨d, i, slot, hk, -, -, ha⟩⟩ | ⟨x, hx, hk, ha⟩ :=
    addEntry_cases rules w entry <;> rw [ha, hx]
  · simp
  · simp [declared, fields, report]
  · have hc := isCondition_conditionOf hk entry.line i slot
    rw [declared_snoc (slots_push w _ entry.span)]
    simp [outline, hc]
  · obtain ⟨target, v, slot, hp⟩ := places_declare rules (w.closeScopes x.descriptor.level) hk
    have hc : slot.field.isCondition = false := by
      simp [Field.isCondition, hp.kind_eq, hk]
    have hfield : outline [declaredAs slot.field] = [(x.entry.line, x.descriptor.level)] := by
      rw [← List.map_singleton, outline_map_declaredAs]
      simp [outline, hc, hp.line_eq, hp.level_eq]
    rw [declared_snoc hp.slots_eq, declared_closeScopes hn]
    simpa [outline] using hfield

/-- The data items of a walk are the declarations among its entries, in order. -/
theorem outline_run (rules : Rules) (entries : List Entry) :
    outline (run rules entries).fields =
      (entries.filterMap Entry.declaration?).map fun x => (x.entry.line, x.descriptor.level) := by
  have hfold : ∀ w : Walk, w.Nested →
      outline (entries.foldl (addEntry rules) w).declared = outline w.declared ++
        (entries.filterMap Entry.declaration?).map fun x => (x.entry.line, x.descriptor.level) := by
    induction entries with
    | nil => simp
    | cons entry rest ih =>
      intro w hn
      rw [List.foldl_cons, ih _ (hn.addEntry rules entry), outline_addEntry hn]
      cases hx : entry.declaration? <;> simp [hx]
  rw [← outline_map_declaredAs]
  exact (congrArg outline (declared_closeScopes ((Nested.start rules).foldl rules entries) 0)).trans
    (hfold (start rules) (.start rules))

/-- Bytes in use are not handed out again, except to a redefinition and what it holds.  A data item
that redefines nothing, where the levels declared so far leave no redefinition open, starts behind
the bytes of all items before it.  So without redefinitions the bytes of the items are in source
order. -/
theorem starts_behind_bytes (rules : Rules) (entries : List Entry) :
    let fields := (run rules entries).fields
    outline fields = (entries.filterMap Entry.declaration?).map
      (fun x => (x.entry.line, x.descriptor.level)) ∧
    (∀ (i : Nat) (f : Field), fields[i]? = some f → f.isCondition = false →
      f.redefinesTarget = none → IsClosedAt fields i → EndsBefore fields i f.startPosition) ∧
    ((∀ f ∈ fields, f.redefinesTarget = none) →
      fields.Pairwise fun e f => e.HasBytes → f.HasBytes → e.endPosition < f.startPosition) := by
  intro fields
  have hmain : ∀ (i : Nat) (f : Field), fields[i]? = some f → f.isCondition = false →
      f.redefinesTarget = none → IsClosedAt fields i → EndsBefore fields i f.startPosition := by
    intro i f hf hc ht hs
    have hget : (run rules entries).declared[i]? = some (declaredAs f) := by
      rw [declared, List.getElem?_map, hf]
      rfl
    have h := (succeeds_run rules entries).ascends i (declaredAs f) hget (by simpa using hc)
      (by simpa using ht) (isClosedAt_map_declaredAs hs)
    rwa [startPosition_declaredAs, declared, endsBefore_map_declaredAs] at h
  refine ⟨outline_run rules entries, hmain, fun hnone => ?_⟩
  refine List.pairwise_iff_getElem.2 fun j i hj hi hlt he hf => ?_
  have hc : fields[i].isCondition = false := Field.isCondition_of_isElementary hf.1
  have hclosed : IsClosedAt fields i := by
    intro k _ g hg hr
    rw [hnone g (List.mem_of_getElem? hg)] at hr
    cases hr
  exact hmain i fields[i] (List.getElem?_eq_getElem hi) hc (hnone _ (List.getElem_mem hi)) hclosed
    j hlt fields[j] (List.getElem?_eq_getElem hj) he

/-- The last item closes a redefinition that is longer than what it redefines, and starts behind
both.  Without the redefinition, each item starts behind the one before. -/
theorem starts_behind_bytes_closed_redefinition :
    let entriesOf := fun lines : List String =>
      Entry.ofLines none (Source.ofLines (lines.map String.toList)).lines
    let entries := entriesOf ["01 A.", "   05 B PIC X(4).", "   05 C REDEFINES B.",
      "      10 D PIC X(6).", "   05 E PIC X(2)."]
    let plain := entriesOf ["01 A.", "   05 B PIC X(4).", "   05 E PIC X(2)."]
    ∃ rules : Rules, Rules.interpretWith .plain {} = .ok rules ∧
      IsClosedAt (run rules entries).fields 4 ∧ EndsBefore (run rules entries).fields 4 7 ∧
      ((run rules entries).fields.map fun f => (f.startPosition, f.endPosition)) =
        [(1, 8), (1, 4), (1, 6), (1, 6), (7, 8)] ∧
      (∀ f ∈ (run rules plain).fields, f.redefinesTarget = none) ∧
      (run rules plain).fields.Pairwise fun e f =>
        e.HasBytes → f.HasBytes → e.endPosition < f.startPosition := by
  intro entriesOf entries plain
  let rules := Rules.standard {} .undivided
  have hitem : ∃ f, (run rules entries).fields[4]? = some f ∧ f.isCondition = false ∧
      f.redefinesTarget = none ∧ f.startPosition = 7 := by
    have hsome : ∃ f ∈ (run rules entries).fields[4]?, f.isCondition = false ∧
        f.redefinesTarget = none ∧ f.startPosition = 7 := by decide +kernel
    exact hsome
  obtain ⟨f, hf, hc, ht, hstart⟩ := hitem
  have hclosed : IsClosedAt (run rules entries).fields 4 := by decide +kernel
  have hplain : ∀ f ∈ (run rules plain).fields, f.redefinesTarget = none := by decide +kernel
  exact ⟨rules, Rules.interpret_default, hclosed,
    hstart ▸ (starts_behind_bytes rules entries).2.1 4 f hf hc ht hclosed, by decide +kernel,
    hplain, (starts_behind_bytes rules plain).2.2 hplain⟩

end Walk

end DataDivision.Record
