import DataDivision.Proofs.Checked.State

/-!
Checked walks.

The links that a walk follows lead to earlier fields, and the indices that it keeps are those of
slots.  So all indices are in range, each step ends (`addEntry_eq`), and so does the whole walk
(`run_eq`).
-/

namespace DataDivision.Checked

open Record

/-! ## Redefinitions -/

/-- Fields that refer to each other by index. -/
abbrev Fields := List Field

/-- Where following redefinitions ends. -/
def Fields.baseOf (fields : Fields) (i : Nat) : Option Nat := do
  let field ← fields[i]?
  match field.redefinesTarget with
  | none => return i
  | some target => fields |>.baseOf target
partial_fixpoint

/-- Each link leads to an earlier field, so following links ends. -/
theorem Fields.baseOf_eq {fields : Fields} (h : ∀ i t, targetOf fields i = some t → t < i)
    {i : Nat} (hi : i < fields.length) : fields.baseOf i = some (Record.baseOf fields i) := by
  induction i using Nat.strongRecOn with
  | _ i ih =>
    have htarget : targetOf fields i = fields[i].redefinesTarget := by
      rw [targetOf, List.getElem?_eq_getElem hi, Option.bind_some]
    rw [Fields.baseOf, List.getElem?_eq_getElem hi, Option.bind_eq_bind, Option.bind_some]
    cases ht : fields[i].redefinesTarget with
    | none => rw [baseOf_of_target_none (htarget.trans ht)]; rfl
    | some t =>
      have hlt := h i t (htarget.trans ht)
      rw [baseOf_of_target_some (htarget.trans ht) hlt]
      exact ih t hlt (Nat.lt_trans hlt hi)

def openOverlay (rules : Rules) (d : Entry.Descriptor) (span : Span) (name : String) (s : State) :
    Option (Option Nat × State) :=
  match latestNamed s.fields name with
  | none => some (none, s.report (Walk.undefinedTarget d.name name span))
  | some i => do
    let target ← s.fields[i]?
    let s ← (if target.level ≠ d.level ∧ rules.config.validation.validateRedefines = true then do
        let targetSpan ← s.spans[i]?
        return s.report (Walk.levelMismatch d span ⟨target, s.rest.cursor, targetSpan⟩)
      else some s)
    let base ← Fields.baseOf s.fields i
    let targetLimit ← s.limits[i]?
    let baseLimit ← s.limits[base]?
    let shared := (s.rest.shared.lookup base).getD 0
    let resume := max (max (max shared targetLimit) baseLimit) s.rest.cursor
    let baseField ← s.fields[base]?
    return (some i, { s with rest := { s.rest with
      overlays := ⟨d.level, base, resume⟩ :: s.rest.overlays
      cursor := baseField.startPosition } })

def redefine (rules : Rules) (d : Entry.Descriptor) (span : Span) (s : State) :
    Option (Option Nat × State) :=
  match d.redefines with
  | some name =>
    if rules.config.fieldProcessing.processRedefines then openOverlay rules d span name s
    else some (none, s)
  | none => some (none, s)

section

variable {w : Walk}

theorem baseOf_of (h : w.Linked) {i : Nat} (hi : i < w.slots.length) :
    Fields.baseOf (State.of w).fields i = some (Record.baseOf w.fields i) := by
  rw [← baseOf_linkDown]
  exact Fields.baseOf_eq (fun i t => targetOf_lt (isLinked_linkDown h.links))
    ((length_fields_of w).symm ▸ hi)

theorem openOverlay_eq (h : w.Linked) (rules : Rules) (d : Entry.Descriptor) (span : Span)
    (name : String) : openOverlay rules d span name (.of w) =
      some ((w.openOverlay rules d span name).1, .of (w.openOverlay rules d span name).2) := by
  have hlatest : latestNamed (State.of w).fields name = w.target? name := by
    rw [target?_eq, State.of, latestNamed_linkDown]
  unfold openOverlay Walk.openOverlay
  rw [hlatest]
  cases ht : w.target? name with
  | none => rfl
  | some i =>
    have hlt : i < w.slots.length := Walk.target?_lt ht
    obtain ⟨target, hi⟩ : ∃ target, w.slots[i]? = some target :=
      ⟨_, List.getElem?_eq_getElem hlt⟩
    obtain ⟨base, hb⟩ : ∃ base, w.slots[Record.baseOf w.fields i]? = some base :=
      ⟨_, List.getElem?_eq_getElem (Nat.lt_of_le_of_lt (Walk.baseOf_le _ _) hlt)⟩
    have hspan : (State.of w).spans[i]? = some target.span := by simp [State.of, hi]
    have hlimit : (State.of w).limits[i]? = some target.limit := by simp [State.of, hi]
    have hlimitBase : (State.of w).limits[Record.baseOf w.fields i]? = some base.limit := by
      simp [State.of, hb]
    simp only [getElem?_fields_of hi, Option.bind_eq_bind, Option.bind_some, hspan, hi, hb]
    split
    · have hreport : ∀ e, (State.of w).report e = .of (w.report e) := fun _ => rfl
      have hfields : ∀ e, (State.of (w.report e)).fields = (State.of w).fields := fun _ => rfl
      have hlimits : ∀ e, (State.of (w.report e)).limits = (State.of w).limits := fun _ => rfl
      simp only [Option.pure_def, Option.bind_some, hreport, hfields, hlimits, baseOf_of h hlt,
        hlimit, hlimitBase, getElem?_fields_of hb]
      rfl
    · simp only [Option.pure_def, Option.bind_some, baseOf_of h hlt, hlimit, hlimitBase,
        getElem?_fields_of hb]
      rfl

theorem redefine_eq (h : w.Linked) (rules : Rules) (d : Entry.Descriptor) (span : Span) :
    redefine rules d span (.of w) =
      some ((w.redefine rules d span).1, .of (w.redefine rules d span).2) := by
  unfold redefine Walk.redefine
  cases d.redefines with
  | none => rfl
  | some name =>
    dsimp only
    split
    · exact openOverlay_eq h rules d span name
    · rfl

end

/-! ## Adding fields -/

/-- Adds a field to the children of the group around it. -/
def linkChild (parent : Option Nat) (i : Nat) (s : State) : Option State :=
  match parent with
  | some p => s.modifyField p (·.addChild i)
  | none => some s

/-- Adds a condition name to those of the item it describes. -/
def linkConditionName (host i : Nat) (s : State) : Option State :=
  s.modifyField host (·.addConditionName i)

/-- Puts a field with storage at `start`. -/
def place (f : Field) (start length : Nat) : Option Field := do
  let last ← (if 0 < length then (Storage.add? start length).bind (sub · 1) else some start)
  return { f with startPosition := start, storageLength := length, endPosition := last }

def addGroup (d : Entry.Descriptor) (entry : Entry) (field : Field) (usage : Option String)
    (s : State) : State :=
  let pushed := s.push (field.setExtent s.rest.cursor s.rest.cursor) entry.span
  { pushed with rest := { s.rest with
    groups := ⟨s.fields.length, d.level, entry.span, usage⟩ :: s.rest.groups } }

/-- Adds an elementary item that has its bytes and ends before the given position. -/
def addPlaced (span : Span) (next : Nat) (s : State) (placed : Field) : State :=
  ((s.withRest { s.rest with cursor := max s.rest.cursor next }).push placed span).withRest
    { s.rest with
      cursor := max s.rest.cursor next
      lastElementary := some s.fields.length }

/-- Adds an elementary item that ends before the given position. -/
def finishElementary (field : Field) (span : Span) (next : Nat) (s : State) : Option State :=
  (place field s.rest.cursor (next - s.rest.cursor)).map (addPlaced span next s)

def addElementary (rules : Rules) (d : Entry.Descriptor) (entry : Entry) (field : Field)
    (usage : Option String) (s : State) : Option State :=
  let resolved := s.rest.resolveUsage rules usage d.name entry.span
  let length := Storage.length .elementary d.shape resolved.1 d.occurs
  let bounded := resolved.2.bound (Storage.add? resolved.2.cursor length) d.name entry.span
  finishElementary { field with usage := usage, encoding := resolved.1 } entry.span bounded.1
    (s.withRest bounded.2)

section

variable {w v : Walk} {field : Field}

theorem modify_concat {α : Type} {l : List α} {i : Nat} (h : i < l.length) (a : α) (f : α → α) :
    modify (l ++ [a]) i f = some (l.modify i f ++ [a]) := by
  rw [modify_eq (by rw [List.length_append]; omega)]
  refine congrArg some (List.ext_getElem? fun j => ?_)
  rw [List.getElem?_modify]
  by_cases hj : j < l.length
  · rw [List.getElem?_append_left hj, List.getElem?_append_left (by simpa using hj),
      List.getElem?_modify]
  · have hne : i ≠ j := by omega
    rw [List.getElem?_append_right (by omega), List.getElem?_append_right (by simp; omega),
      List.length_modify]
    simp [hne]

theorem push_of (w : Walk) (field : Field) (span : Span) :
    (State.of w).push field span =
      { State.of (w.push field span) with fields := linkDown w.fields ++ [field] } := by
  simp [State.push, State.of, Walk.push]

/-- Linking to a field in range gives the walk with the new field. -/
theorem modifyField_eq (h : w.Linked) (hv : v.fields = w.fields ++ [field])
    (hf : field.IsNew w.slots.length) {i : Nat} (hi : i < w.slots.length) {f : Field → Field}
    (hlast : linkLast (linkDown w.fields) field = (linkDown w.fields).modify i f) :
    ({ State.of v with fields := linkDown w.fields ++ [field] } : State).modifyField i f =
      some (.of v) := by
  have hlength : w.fields.length = w.slots.length := List.length_map ..
  have hlink := linkDown_concat h.links (hlength.symm ▸ hf)
  rw [← hv, hlast] at hlink
  rw [State.modifyField, modify_concat (by rw [length_linkDown]; omega), ← hlink]
  rfl

/-- What was added stands in the lists of what refers to others once it is linked. -/
theorem linkChild_eq (h : w.Linked) (hv : v.fields = w.fields ++ [field])
    (hf : field.IsNew w.slots.length) (hh : field.host = none) :
    linkChild field.parent w.slots.length
      { State.of v with fields := linkDown w.fields ++ [field] } = some (.of v) := by
  have hlength : w.fields.length = w.slots.length := List.length_map ..
  cases hp : field.parent with
  | none =>
    have hlink := linkDown_concat h.links (hlength.symm ▸ hf)
    rw [linkLast_eq_self hp hh, ← hv] at hlink
    rw [linkChild, ← hlink]
    rfl
  | some p =>
    refine modifyField_eq h hv hf (hf.parent_lt p hp) ?_
    rw [linkLast_of_parent hp hh, length_linkDown, hlength]

theorem linkConditionName_eq {host : Nat} (h : w.Linked) (hv : v.fields = w.fields ++ [field])
    (hf : field.IsNew w.slots.length) (hp : field.parent = none) (hh : field.host = some host) :
    linkConditionName host w.slots.length
      { State.of v with fields := linkDown w.fields ++ [field] } = some (.of v) := by
  refine modifyField_eq h hv hf (hf.host_lt host hh) ?_
  rw [linkLast_of_host hp hh, length_linkDown, Walk.fields, List.length_map]

theorem place_eq {start length : Nat} (h : 0 < length → start + length ≤ Text.maxWord64) :
    place field start length = some (field.place start length) := by
  unfold place
  by_cases hl : 0 < length
  · rw [if_pos hl, add?_eq (h hl), Option.bind_some, sub_eq (by omega), Field.place, if_pos hl]
    rfl
  · rw [if_neg hl, Field.place, if_neg hl]
    rfl

theorem addGroup_eq (d : Entry.Descriptor) (entry : Entry) (usage : Option String) :
    addGroup d entry field usage (.of w) = { State.of (w.addGroup d entry field usage) with
      fields := linkDown w.fields ++ [field.setExtent w.cursor w.cursor] } := by
  unfold addGroup
  rw [push_of, length_fields_of]
  rfl

theorem finishElementary_eq {next : Nat} (h : next ≤ Storage.maxRecordLength + 1) (span : Span) :
    finishElementary field span next (.of w) =
      some { State.of (w.finishElementary field span next) with
        fields := linkDown w.fields ++ [field.place w.cursor (next - w.cursor)] } := by
  have hplace : place field w.cursor (next - w.cursor) =
      some (field.place w.cursor (next - w.cursor)) := by
    refine place_eq fun hl => ?_
    simp only [Storage.maxRecordLength, Text.maxWord64] at h ⊢
    omega
  have hcursor : (State.of w).rest.cursor = w.cursor := rfl
  have hlimits : (w.finishElementary field span next).slots.map (·.limit) =
      w.slots.map (·.limit) ++ [max w.cursor next] := List.map_append
  have hspans : (w.finishElementary field span next).slots.map (·.span) =
      w.slots.map (·.span) ++ [span] := List.map_append
  rw [finishElementary, hcursor, hplace, Option.map_some, addPlaced, length_fields_of, State.of,
    State.of, hlimits, hspans]
  rfl

theorem resolveUsage_bare (w : Walk) (rules : Rules) (usage : Option String) (name : String)
    (span : Span) : ({ w with slots := [] } : Walk).resolveUsage rules usage name span =
      ((w.resolveUsage rules usage name span).1,
        { (w.resolveUsage rules usage name span).2 with slots := [] }) := by
  unfold Walk.resolveUsage
  cases rules.usages.resolve usage <;> rfl

/-- An elementary item is added behind the fields of the walk. -/
theorem addElementary_eq (rules : Rules) (d : Entry.Descriptor) (entry : Entry) (field : Field)
    (usage : Option String) : ∃ placed : Field,
      (placed.parent = field.parent ∧ placed.host = field.host ∧
        placed.children = field.children ∧ placed.conditionNames = field.conditionNames) ∧
      (w.addElementary rules d entry field usage).fields = w.fields ++ [placed] ∧
      addElementary rules d entry field usage (.of w) =
        some { State.of (w.addElementary rules d entry field usage) with
          fields := linkDown w.fields ++ [placed] } := by
  have hresolve := resolveUsage_bare w rules usage d.name entry.span
  have hr := Walk.Agrees.resolveUsage rules usage d.name entry.span w
  have hrest : (State.of w).rest = { w with slots := [] } := rfl
  rw [Walk.addElementary_eq]
  unfold addElementary
  dsimp only
  rw [hrest, hresolve]
  generalize w.resolveUsage rules usage d.name entry.span = resolved at hr ⊢
  obtain ⟨encoding, u⟩ := resolved
  dsimp only at hr ⊢
  rw [bound_bare]
  have hb := Walk.Agrees.bound u (Storage.add? u.cursor (Storage.length .elementary d.shape encoding
    d.occurs)) d.name entry.span
  have hle := Walk.fst_bound_le u (Storage.add? u.cursor (Storage.length .elementary d.shape encoding
    d.occurs)) d.name entry.span
  generalize u.bound (Storage.add? u.cursor (Storage.length .elementary d.shape encoding d.occurs))
    d.name entry.span = bounded at hb hle ⊢
  obtain ⟨next, b⟩ := bounded
  dsimp only at hb hle ⊢
  have hslots := (hb.trans hr).slots_eq
  have hfields : b.fields = w.fields := congrArg (List.map _) hslots
  have hof : (State.of w).withRest { b with slots := [] } = .of b := by
    rw [State.withRest, State.of, State.of, hfields, hslots]
  refine ⟨({ field with usage := usage, encoding := encoding } : Field).place b.cursor
    (next - b.cursor), ⟨rfl, rfl, rfl, rfl⟩, ?_, ?_⟩
  · rw [Walk.fields, Walk.fields, ← hslots]
    exact List.map_append
  · rw [hof, finishElementary_eq hle, hfields]

end

/-! ## Entries -/

/-- Adds a declaration when everything of its level and deeper is closed, and reads it again. -/
def declare (rules : Rules) (x : Declaration) (s : State) : Option State := do
  let (target, opened) ← redefine rules x.descriptor x.entry.span s
  let field := s.rest.fieldOf x target
  let usage := s.rest.usageOf x.descriptor
  let added ← (match x.descriptor.kind with
    | .group => some (addGroup x.descriptor x.entry field usage opened)
    | _ => addElementary rules x.descriptor x.entry field usage opened)
  let linked ← linkChild field.parent opened.fields.length added
  let _ ← linked.fields[opened.fields.length]?
  return linked

def addCondition (rules : Rules) (d : Entry.Descriptor) (entry : Entry) (s : State) :
    Option State :=
  if !rules.config.fieldProcessing.processConditions then some s
  else
    match s.rest.lastElementary with
    | none => some (s.report (Walk.orphanCondition d.name entry.span))
    | some i => do
      let host ← s.fields[i]?
      let field := (Field.ofDescriptor d entry.line).setExtent host.startPosition host.endPosition
      linkConditionName i s.fields.length (s.push { field with host := some i } entry.span)

def addEntry (rules : Rules) (s : State) (entry : Entry) : Option State :=
  match Entry.scan entry.text entry.span with
  | .error d => some (s.report d)
  | .ok none => some s
  | .ok (some d) =>
    match d.kind with
    | .condition => addCondition rules d entry s
    | _ => (s.closeScopes d.level).bind (declare rules ⟨d, entry⟩)

def start (rules : Rules) : Option State := do
  let cursor ← Storage.add? rules.startPosition rules.codeWidth
  return ⟨[], [], [], { cursor := cursor }⟩

def run (rules : Rules) (entries : List Entry) : Option State := do
  let s ← start rules
  let s ← entries.foldlM (addEntry rules) s
  s.closeScopes 0

section

variable {w : Walk}

theorem lists_ofDescriptor (d : Entry.Descriptor) (line : Nat) :
    (Field.ofDescriptor d line).children = [] ∧
      (Field.ofDescriptor d line).conditionNames = [] := by
  unfold Field.ofDescriptor
  cases d.shape <;> exact ⟨rfl, rfl⟩

/-- The field of a declaration refers to an open group, which is before it. -/
theorem isNew_fieldOf (h : w.Nested) (x : Declaration) (target : Option Nat) :
    (w.fieldOf x target).IsNew w.slots.length := by
  refine ⟨fun p hp => ?_, fun i hi => ?_, (lists_ofDescriptor _ _).1, (lists_ofDescriptor _ _).2⟩
  · obtain ⟨group, hg, rfl⟩ := Option.map_eq_some_iff.1 hp
    exact h.index_lt (List.mem_of_mem_head? hg)
  · rw [Walk.fieldOf, Walk.host_ofDescriptor] at hi
    cases hi

theorem declare_eq (h : w.Linked) (hn : w.Nested) (rules : Rules) (x : Declaration) :
    declare rules x (.of w) = some (.of (w.declare rules x)) := by
  have hslots := Walk.slots_redefine rules x.descriptor x.entry.span w
  have hfield : ∀ target, (State.of w).rest.fieldOf x target = w.fieldOf x target := fun _ => rfl
  have husage : (State.of w).rest.usageOf x.descriptor = w.usageOf x.descriptor := rfl
  unfold declare
  rw [redefine_eq h, husage]
  simp only [Option.bind_eq_bind, Option.bind_some, hfield]
  rw [Walk.declare]
  generalize w.redefine rules x.descriptor x.entry.span = opened at hslots ⊢
  obtain ⟨target, v⟩ := opened
  dsimp only at hslots ⊢
  have hv : v.fields = w.fields := congrArg (List.map _) hslots
  have hnew := isNew_fieldOf hn x target
  -- The new field is the last one, whether it is a group or an elementary item.
  have hadded : ∀ (u : Walk) (placed : Field), u.fields = w.fields ++ [placed] →
      placed.parent = (w.fieldOf x target).parent → placed.IsNew w.slots.length →
      placed.host = none →
      ((linkChild (w.fieldOf x target).parent (State.of v).fields.length
        { State.of u with fields := linkDown w.fields ++ [placed] }).bind fun linked =>
          linked.fields[(State.of v).fields.length]?.bind fun _ => some linked) =
        some (State.of u) := by
    intro u placed hu hp hplaced hhost
    have hlength : (State.of u).fields.length = w.slots.length + 1 := by
      rw [State.of, length_linkDown, hu, List.length_append, Walk.fields, List.length_map,
        List.length_singleton]
    rw [length_fields_of, hslots, ← hp, linkChild_eq h hu hplaced hhost, Option.bind_some,
      List.getElem?_eq_getElem (by omega), Option.bind_some]
  have hhost : (w.fieldOf x target).host = none := Walk.host_ofDescriptor _ _
  cases hk : x.descriptor.kind with
  | group =>
    dsimp only
    rw [addGroup_eq, hv]
    refine hadded (v.addGroup x.descriptor x.entry (w.fieldOf x target) (w.usageOf x.descriptor))
      ((w.fieldOf x target).setExtent v.cursor v.cursor) ?_ rfl
      ⟨hnew.parent_lt, hnew.host_lt, hnew.children_eq, hnew.conditionNames_eq⟩ hhost
    rw [← hv]
    exact List.map_append
  | elementary | condition =>
    dsimp only
    obtain ⟨placed, ⟨hp, hh, hc, hcn⟩, hu, he⟩ := addElementary_eq (w := v) rules x.descriptor
      x.entry (w.fieldOf x target) (w.usageOf x.descriptor)
    rw [he, hv]
    exact hadded _ placed (hv ▸ hu) hp ⟨hp ▸ hnew.parent_lt, hh ▸ hnew.host_lt,
      hc.trans hnew.children_eq, hcn.trans hnew.conditionNames_eq⟩ (hh.trans hhost)

theorem addCondition_eq (h : w.Linked) (rules : Rules) (d : Entry.Descriptor) (entry : Entry) :
    addCondition rules d entry (.of w) = some (.of (w.addCondition rules d entry)) := by
  have hlast : (State.of w).rest.lastElementary = w.lastElementary := rfl
  unfold addCondition Walk.addCondition
  split
  · rfl
  · rw [hlast]
    cases hl : w.lastElementary with
    | none => rfl
    | some i =>
      obtain ⟨slot, hi, -⟩ := h.last i hl
      have hlt := (List.getElem?_eq_some_iff.1 hi).1
      have hpush : ∀ field : Field, (w.push field entry.span).fields = w.fields ++ [field] :=
        fun _ => List.map_append
      simp only [getElem?_fields_of hi, hi, Option.bind_eq_bind, Option.bind_some, Option.map_some,
        push_of, length_fields_of]
      refine linkConditionName_eq h (hpush _) ⟨fun p hp => ?_, fun j hj => ?_, ?_, ?_⟩ ?_ rfl
      · rw [Field.setExtent, Walk.parent_ofDescriptor] at hp
        cases hp
      · exact Option.some.inj hj ▸ hlt
      · exact (lists_ofDescriptor _ _).1
      · exact (lists_ofDescriptor _ _).2
      · exact Walk.parent_ofDescriptor _ _

/-- Each step of a walk with its indices in range is made. -/
theorem addEntry_eq (h : w.Rooted) (hn : w.Nested) (rules : Rules) (entry : Entry) :
    addEntry rules (.of w) entry = some (.of (w.addEntry rules entry)) := by
  unfold addEntry Walk.addEntry
  cases Entry.scan entry.text entry.span with
  | error d => rfl
  | ok scanned =>
    cases scanned with
    | none => rfl
    | some d =>
      have hfield : ((State.of w).closeScopes d.level).bind (declare rules ⟨d, entry⟩) =
          some (.of (w.addField rules d entry)) := by
        rw [State.closeScopes_eq hn, Option.bind_some,
          declare_eq (Walk.stepInvariant_rooted.closeScopes hn d.level h).linked
            (hn.closeScopes d.level)]
        rfl
      cases hk : d.kind with
      | condition => simpa only [hk] using addCondition_eq h.linked rules d entry
      | group => simpa only [hk] using hfield
      | elementary => simpa only [hk] using hfield

theorem foldlM_addEntry (h : w.Rooted) (hn : w.Nested) (rules : Rules) (entries : List Entry) :
    entries.foldlM (addEntry rules) (State.of w) =
      some (.of (entries.foldl (Walk.addEntry rules) w)) := by
  induction entries generalizing w with
  | nil => rfl
  | cons entry rest ih =>
    rw [List.foldlM_cons, addEntry_eq h hn]
    exact ih (Walk.stepInvariant_rooted.addEntry hn rules entry h) (hn.addEntry rules entry)

/-- A walk that starts at a 64-bit position is made to its end. -/
theorem run_eq {rules : Rules} (h : rules.startPosition + rules.codeWidth ≤ Text.maxWord64)
    (entries : List Entry) : run rules entries = some (.of (Walk.run rules entries)) := by
  have hn : (Walk.start rules).Nested := Walk.Nested.start rules
  have hstart : start rules = some (.of (Walk.start rules)) := by
    rw [start, add?_eq h]
    rfl
  rw [run, hstart]
  simp only [Option.bind_eq_bind, Option.bind_some,
    foldlM_addEntry (Walk.rooted_start rules) hn rules entries]
  exact State.closeScopes_eq (hn.foldl rules entries) 0

end

end DataDivision.Checked
