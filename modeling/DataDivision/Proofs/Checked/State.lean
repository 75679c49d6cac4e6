import DataDivision.Proofs.Checked.Basic
import DataDivision.Proofs.Record.DataFields
import DataDivision.Proofs.Record.Rooted

/-!
States of checked walks.

A checked walk keeps its slots as three lists side by side, and its fields have the lists of what
refers to them from the beginning (`State`).  Closing scopes reads and writes these lists by index,
and it ends, because each turn closes a scope (`State.closeScopes_eq`).
-/

namespace DataDivision

/-- The field may be added behind `n` others: it refers to those only, and no field to it. -/
structure Field.IsNew (f : Field) (n : Nat) : Prop where
  parent_lt : ∀ p ∈ f.parent, p < n
  host_lt : ∀ h ∈ f.host, h < n
  children_eq : f.children = []
  conditionNames_eq : f.conditionNames = []

/-- Adds to the fields that refer to this one as their parent. -/
def Field.addChild (i : Nat) (f : Field) : Field := { f with children := f.children ++ [i] }

/-- Adds to the condition names that describe this field. -/
def Field.addConditionName (i : Nat) (f : Field) : Field :=
  { f with conditionNames := f.conditionNames ++ [i] }

namespace Record

/-! ## Links down -/

/-- The fields when one behind them is added to the lists of those it refers to. -/
def linkLast (fields : List Field) (f : Field) : List Field :=
  fields.mapIdx fun j g => { g with
    children := g.children ++ if f.parent == some j then [fields.length] else []
    conditionNames := g.conditionNames ++ if f.host == some j then [fields.length] else [] }

section

variable {fields fields' : List Field} {f : Field} {i : Nat}

theorem length_linkDown (fields : List Field) : (linkDown fields).length = fields.length :=
  List.length_mapIdx

theorem targetOf_linkDown (fields : List Field) : targetOf (linkDown fields) = targetOf fields := by
  funext i
  rw [targetOf, targetOf, getElem?_linkDown]
  cases fields[i]? <;> rfl

theorem parentOf_linkDown (fields : List Field) : parentOf (linkDown fields) = parentOf fields := by
  funext i
  rw [parentOf, parentOf, getElem?_linkDown]
  cases fields[i]? <;> rfl

theorem baseOf_linkDown (fields : List Field) : baseOf (linkDown fields) = baseOf fields := by
  funext i
  rw [baseOf, baseOf, targetOf_linkDown]

theorem latestNamed_linkDown (fields : List Field) (name : String) :
    latestNamed (linkDown fields) name = latestNamed fields name := by
  refine latestNamed_congr name (List.ext_getElem? fun i => ?_)
  rw [List.getElem?_map, List.getElem?_map, getElem?_linkDown, Option.map_map]
  rfl

theorem isLinked_linkDown (h : IsLinked fields) : IsLinked (linkDown fields) := by
  have hkept : FieldsKept fields (linkDown fields) := by
    intro j g hj
    exact ⟨_, (getElem?_linkDown fields j).trans (congrArg _ hj), rfl, rfl, rfl, fun _ => rfl⟩
  intro i f hi
  rw [getElem?_linkDown, Option.map_eq_some_iff] at hi
  obtain ⟨g, hg, rfl⟩ := hi
  have hl := (h i g hg).mono hkept
  exact ⟨hl.parent, hl.condition, hl.host, hl.target⟩

theorem targetOf_lt (h : IsLinked fields) {i t : Nat} (ht : targetOf fields i = some t) :
    t < i := by
  obtain ⟨f, hf, hft⟩ := Option.bind_eq_some_iff.1 ht
  exact ((h i f hf).target t hft).1

theorem parentOf_lt (h : IsLinked fields) {i p : Nat} (hp : parentOf fields i = some p) :
    p < i := by
  obtain ⟨f, hf, hfp⟩ := Option.bind_eq_some_iff.1 hp
  exact ((h i f hf).parent p hfp).1

/-- Which members satisfy a condition is all that their indices depend on. -/
theorem indicesOf_congr {p q : Field → Bool} (h : fields.map p = fields'.map q) :
    indicesOf fields p = indicesOf fields' q := by
  have hmap : ∀ (l : List Field) (p : Field → Bool),
      indicesOf l p = ((l.map p).zipIdx.filter (·.1)).map (·.2) := by
    intro l p
    rw [List.zipIdx_map, List.filter_map, List.map_map]
    rfl
  rw [hmap, hmap, h]

theorem indicesOf_concat (fields : List Field) (f : Field) (p : Field → Bool) :
    indicesOf (fields ++ [f]) p =
      indicesOf fields p ++ if p f then [fields.length] else [] := by
  rw [indicesOf, List.zipIdx_append, List.filter_append, List.map_append, indicesOf]
  congr 1
  cases h : p f <;> simp [h]

/-- What replaces a field and satisfies the same conditions has the same index. -/
theorem indicesOf_set {p : Field → Bool} {g : Field} (hi : fields[i]? = some f) (hp : p g = p f) :
    indicesOf (fields.set i g) p = indicesOf fields p := by
  refine indicesOf_congr (List.ext_getElem? fun j => ?_)
  rw [List.getElem?_map, List.getElem?_map, List.getElem?_set]
  split
  · rename_i h
    subst h
    obtain ⟨hlt, -⟩ := List.getElem?_eq_some_iff.1 hi
    rw [if_pos hlt, hi, Option.map_some, Option.map_some, hp]
  · rfl

/-- New bytes of a field disturb no links. -/
theorem modify_setExtent (hi : fields[i]? = some f) (first last : Nat) :
    (linkDown fields).modify i (·.setExtent first last) =
      linkDown (fields.set i (f.setExtent first last)) := by
  refine List.ext_getElem? fun j => ?_
  rw [List.getElem?_modify, getElem?_linkDown, getElem?_linkDown,
    indicesOf_set (g := f.setExtent first last) hi rfl,
    indicesOf_set (g := f.setExtent first last) hi rfl, List.getElem?_set]
  split
  · rename_i h
    subst h
    obtain ⟨hlt, -⟩ := List.getElem?_eq_some_iff.1 hi
    rw [if_pos hlt, hi]
    rfl
  · rename_i h
    cases fields[j]? <;> rfl

/-- No field refers to one behind it. -/
theorem indicesOf_eq_nil {link : Field → Option Nat}
    (h : ∀ i f, fields[i]? = some f → ∀ j ∈ link f, j < i) :
    (indicesOf fields fun g => link g == some fields.length) = [] := by
  refine List.eq_nil_iff_forall_not_mem.2 fun k hk => ?_
  obtain ⟨g, hg, hlink⟩ := mem_indicesOf.1 hk
  have hlt := h k g hg _ (eq_of_beq hlink)
  have hk := (List.getElem?_eq_some_iff.1 hg).1
  omega

theorem length_linkLast (fields : List Field) (f : Field) :
    (linkLast fields f).length = fields.length := List.length_mapIdx

theorem linkLast_eq_self (hp : f.parent = none) (hh : f.host = none) :
    linkLast fields f = fields := by
  refine List.ext_getElem? fun j => ?_
  rw [linkLast, List.getElem?_mapIdx]
  cases fields[j]? <;> simp [hp, hh]

theorem linkLast_of_parent (hp : f.parent = some i) (hh : f.host = none) :
    linkLast fields f = fields.modify i (·.addChild fields.length) := by
  refine List.ext_getElem? fun j => ?_
  rw [linkLast, List.getElem?_mapIdx, List.getElem?_modify]
  cases fields[j]? with
  | none => rfl
  | some g => by_cases hj : i = j <;> simp [hp, hh, hj, Field.addChild]

theorem linkLast_of_host (hp : f.parent = none) (hh : f.host = some i) :
    linkLast fields f = fields.modify i (·.addConditionName fields.length) := by
  refine List.ext_getElem? fun j => ?_
  rw [linkLast, List.getElem?_mapIdx, List.getElem?_modify]
  cases fields[j]? with
  | none => rfl
  | some g => by_cases hj : i = j <;> simp [hp, hh, hj, Field.addConditionName]

/-- A field at the end is added to the lists of the fields it refers to, and nothing refers to it.
-/
theorem linkDown_concat (hl : IsLinked fields) (hf : f.IsNew fields.length) :
    linkDown (fields ++ [f]) = linkLast (linkDown fields) f ++ [f] := by
  have hlength : (linkLast (linkDown fields) f).length = fields.length :=
    (length_linkLast _ f).trans (length_linkDown fields)
  refine List.ext_getElem? fun j => ?_
  rw [getElem?_linkDown, indicesOf_concat, indicesOf_concat]
  rcases Nat.lt_trichotomy j fields.length with h | rfl | h
  · rw [List.getElem?_append_left h, List.getElem?_append_left (hlength ▸ h), linkLast,
      List.getElem?_mapIdx, getElem?_linkDown, Option.map_map, length_linkDown]
    rfl
  · have hparent : f.parent ≠ some fields.length := fun hp => Nat.lt_irrefl _ (hf.parent_lt _ hp)
    have hhost : f.host ≠ some fields.length := fun hh => Nat.lt_irrefl _ (hf.host_lt _ hh)
    have hparents := indicesOf_eq_nil fun i g hg p hp => ((hl i g hg).parent p hp).1
    have hhosts := indicesOf_eq_nil fun i g hg k hk => ((hl i g hg).host k hk).2.1
    have hend : ∀ {l : List Field}, l.length = fields.length →
        (l ++ [f])[fields.length]? = some f := by
      intro l hl
      rw [← hl, List.getElem?_concat_length]
    have hself : ({ f with children := [], conditionNames := [] } : Field) = f := by
      have hc := hf.children_eq
      have hn := hf.conditionNames_eq
      cases f
      dsimp only at hc hn
      rw [hc, hn]
    rw [hend rfl, hend hlength, hparents, hhosts]
    simp [hparent, hhost, hself]
  · rw [List.getElem?_eq_none (by simp; omega), List.getElem?_eq_none (by simp [hlength]; omega)]
    rfl

end

end Record

/-! ## Checked walks -/

namespace Checked

open Record

/-- A walk whose slots are kept as three lists side by side. -/
structure State where
  /-- The fields, with the lists of what refers to them. -/
  fields : List Field
  limits : List Nat
  spans : List Span
  /-- Everything else that a walk keeps; it has no slots. -/
  rest : Walk

namespace State

def of (w : Walk) : State where
  fields := linkDown w.fields
  limits := w.slots.map (·.limit)
  spans := w.slots.map (·.span)
  rest := { w with slots := [] }

def push (s : State) (field : Field) (span : Span) : State :=
  { s with
    fields := s.fields ++ [field]
    limits := s.limits ++ [s.rest.cursor]
    spans := s.spans ++ [span] }

def report (s : State) (d : Diagnostic) : State := { s with rest := s.rest.report d }

/-- Changes everything but the slots. -/
def withRest (s : State) (rest : Walk) : State := { s with rest := rest }

def modifyField (s : State) (i : Nat) (f : Field → Field) : Option State := do
  let fields ← modify s.fields i f
  return { s with fields := fields }

end State

/-! ## Closing -/

/-- Gives a group its bytes, once the position behind its last repetition is known. -/
def finishGroup (s : State) (index first next : Nat) (outer : List OpenGroup) : Option State := do
  let last ← (if first < next then sub next 1 else some first)
  let fields ← modify s.fields index (·.setExtent first last)
  let limits ← modify s.limits index fun _ => next
  return { s with
    fields := fields
    limits := limits
    rest := { s.rest with groups := outer, cursor := max s.rest.cursor next } }

def closeGroup (s : State) (group : OpenGroup) (outer : List OpenGroup) : Option State := do
  let field ← s.fields[group.index]?
  let first := field.startPosition
  let width := Storage.mul? (s.rest.cursor - first) (Storage.repeatCount field.occurs)
  let bounded := s.rest.bound (width.bind (Storage.add? first)) field.name group.span
  finishGroup { s with rest := bounded.2 } group.index first bounded.1 outer

theorem modify_const {α : Type} {l : List α} {i : Nat} {a : α} (h : i < l.length) :
    modify l i (fun _ => a) = some (l.set i a) := by
  rw [modify_eq h]
  refine congrArg some (List.ext_getElem? fun j => ?_)
  rw [List.getElem?_modify, List.getElem?_set]
  split
  · rename_i hj
    subst hj
    rw [List.getElem?_eq_getElem h]
    rfl
  · cases l[j]? <;> rfl

theorem bound_bare (w : Walk) (next : Option Nat) (name : String) (span : Span) :
    ({ w with slots := [] } : Walk).bound next name span =
      ((w.bound next name span).1, { (w.bound next name span).2 with slots := [] }) := by
  obtain ⟨n, rfl, hn, hb⟩ | ⟨hn, hb⟩ := Walk.bound_cases w next name span
  · rw [hb, Walk.bound_of_le name span hn]
  · rw [hb, Walk.bound_of_lt name span hn]
    unfold Walk.overflow
    dsimp only
    split <;> rfl

theorem length_fields_of (w : Walk) : (State.of w).fields.length = w.slots.length :=
  (length_linkDown _).trans (List.length_map ..)

/-- Slots are read as they are, but for the lists of what refers to them. -/
theorem getElem?_fields_of {w : Walk} {i : Nat} {slot : Slot} (hi : w.slots[i]? = some slot) :
    (State.of w).fields[i]? = some { slot.field with
      children := indicesOf w.fields fun g => g.parent == some i
      conditionNames := indicesOf w.fields fun g => g.host == some i } := by
  rw [State.of, getElem?_linkDown, Walk.getElem?_fields.2 ⟨slot, hi, rfl⟩]
  rfl

theorem finishGroup_eq {w : Walk} {index : Nat} {slot : Slot} (hi : w.slots[index]? = some slot)
    (next : Nat) (outer : List OpenGroup) :
    finishGroup (.of w) index slot.field.startPosition next outer =
      some (.of (w.finishGroup index slot next outer)) := by
  obtain ⟨hlt, heq⟩ := List.getElem?_eq_some_iff.1 hi
  obtain ⟨last, hlast, hclosed⟩ : ∃ last, (if slot.field.startPosition < next then sub next 1
        else some slot.field.startPosition) = some last ∧
      (slot.closed next).field = slot.field.setExtent slot.field.startPosition last := by
    by_cases h : slot.field.startPosition < next
    · exact ⟨next - 1, by rw [if_pos h, sub_eq (by omega)], by rw [Slot.closed, if_pos h]⟩
    · exact ⟨slot.field.startPosition, by rw [if_neg h], by rw [Slot.closed, if_neg h]⟩
  have hfields : modify (State.of w).fields index (·.setExtent slot.field.startPosition last) =
      some (linkDown (w.finishGroup index slot next outer).fields) := by
    have hset : (w.finishGroup index slot next outer).fields =
        w.fields.set index (slot.field.setExtent slot.field.startPosition last) :=
      hclosed ▸ List.map_set
    rw [hset, ← modify_setExtent (Walk.getElem?_fields.2 ⟨slot, hi, rfl⟩)]
    exact modify_eq ((length_fields_of w).symm ▸ hlt) _
  have hlimits : modify (State.of w).limits index (fun _ => next) =
      some ((w.finishGroup index slot next outer).slots.map (·.limit)) := by
    have hset : (w.finishGroup index slot next outer).slots.map (·.limit) =
        (w.slots.map (·.limit)).set index next := List.map_set
    rw [hset]
    exact modify_const (by simpa [State.of] using hlt)
  have hspans : (w.finishGroup index slot next outer).slots.map (·.span) =
      w.slots.map (·.span) := by
    have hset : (w.finishGroup index slot next outer).slots.map (·.span) =
        (w.slots.map (·.span)).set index slot.span := List.map_set
    rw [hset]
    refine List.ext_getElem? fun j => ?_
    rw [List.getElem?_set]
    split
    · rename_i h
      subst h
      simp [hlt, heq]
    · rfl
  unfold finishGroup
  rw [hlast]
  simp only [Option.bind_eq_bind, Option.bind_some, hfields, hlimits]
  rw [State.of, State.of, hspans]
  rfl

theorem closeGroup_eq {w : Walk} {group : OpenGroup} {slot : Slot} (outer : List OpenGroup)
    (hi : w.slots[group.index]? = some slot) :
    closeGroup (.of w) group outer = some (.of (w.closeGroup group outer)) := by
  have hslots := Walk.slots_bound w (w.behindGroup? slot) slot.field.name group.span
  have hbound := bound_bare w (w.behindGroup? slot) slot.field.name group.span
  unfold closeGroup
  rw [getElem?_fields_of hi, Walk.closeGroup_of_some outer hi]
  have hrest : (State.of w).rest = { w with slots := [] } := rfl
  have hbehind : (Storage.mul? ((State.of w).rest.cursor - slot.field.startPosition)
      (Storage.repeatCount slot.field.occurs)).bind (Storage.add? slot.field.startPosition) =
        w.behindGroup? slot := rfl
  simp only [Option.bind_eq_bind, Option.bind_some, hbehind]
  rw [hrest, hbound]
  generalize w.bound (w.behindGroup? slot) slot.field.name group.span = bounded at hslots ⊢
  obtain ⟨next, v⟩ := bounded
  dsimp only at hslots ⊢
  rw [← finishGroup_eq (hslots ▸ hi) next outer]
  simp only [State.of, Walk.fields, hslots]

def closeOverlay (s : State) (overlay : OpenOverlay) (outer : List OpenOverlay) : State :=
  { s with rest := s.rest.closeOverlay overlay outer }

def close (s : State) : Walk.Scope → Option State
  | .group group outer => closeGroup s group outer
  | .overlay overlay outer => some (closeOverlay s overlay outer)

def State.closeScopes (s : State) (level : Nat) : Option State :=
  match Walk.nextScope? level s.rest.groups s.rest.overlays with
  | none => some s
  | some scope => do
    let s ← close s scope
    s |>.closeScopes level
partial_fixpoint

theorem close_eq {w : Walk} (h : w.Nested) {level : Nat} {scope : Walk.Scope}
    (hs : Walk.nextScope? level w.groups w.overlays = some scope) :
    close (.of w) scope = some (.of (w.close scope)) := by
  cases scope with
  | overlay overlay outer => rfl
  | group group outer =>
    obtain ⟨slot, hi, -⟩ := h.start_le_cursor hs
    exact closeGroup_eq outer hi

/-- Each turn of the loop closes a scope, so it ends. -/
theorem State.closeScopes_eq {w : Walk} (h : w.Nested) (level : Nat) :
    (State.of w).closeScopes level = some (.of (w.closeScopes level)) := by
  induction hd : w.depth using Nat.strongRecOn generalizing w with
  | _ n ih =>
    have hrest : Walk.nextScope? level (State.of w).rest.groups (State.of w).rest.overlays =
        Walk.nextScope? level w.groups w.overlays := rfl
    rw [State.closeScopes, hrest]
    cases hs : Walk.nextScope? level w.groups w.overlays with
    | none => rw [Walk.closeScopes_of_none hs]
    | some scope =>
      have hlt : (w.close scope).depth < w.depth :=
        Walk.depth_closeScope? (by rw [Walk.closeScope?_eq, hs]; rfl)
      rw [Walk.closeScopes_of_some hs]
      dsimp only
      rw [close_eq h hs]
      exact ih _ (hd ▸ hlt) (h.close hs) rfl

end Checked

end DataDivision
