import DataDivision.Proofs.Record.Forest
import DataDivision.Proofs.Record.Links

/-!
Laying out siblings.

`Laid` says how the slots grow while siblings are laid out one after another.  It still speaks of
one list of slots and one position, as a walk does, but a group and what it holds are one step.  The
bytes of what is laid out are those of the forest (`Laid.extents_eq`).
-/

namespace DataDivision.Record

/-- A sibling that has been laid out. -/
structure Sibling where
  name : String
  index : Nat
  /-- The sibling whose storage it lays out. -/
  base : Nat
  /-- The place of that sibling among its siblings. -/
  storage : Nat
  start : Nat
  /-- The position behind it. -/
  stop : Nat
  deriving DecidableEq, Repr

/-- The slots so far, the position behind the siblings so far, and these siblings, latest first. -/
structure Stage where
  slots : List Slot
  cursor : Nat
  siblings : List Sibling

namespace Stage

def fields (σ : Stage) : List Field := σ.slots.map (·.field)

/-- The sibling that a declaration redefines. -/
def redefined? (σ : Stage) (d : Declaration) : Option Sibling :=
  d.descriptor.redefines.bind fun name =>
    σ.siblings.find? fun s => Text.sameIgnoringCase s.name name

def start (σ : Stage) (d : Declaration) : Nat := ((σ.redefined? d).map (·.start)).getD σ.cursor

/-- The sibling that a declaration becomes. -/
def sibling (σ : Stage) (d : Declaration) (width : Nat) : Sibling where
  name := d.name
  index := σ.slots.length
  base := ((σ.redefined? d).map (·.base)).getD σ.slots.length
  storage := ((σ.redefined? d).map (·.storage)).getD σ.siblings.length
  start := σ.start d
  stop := σ.start d + width

/-- The stage behind a declaration. -/
def join (σ : Stage) (d : Declaration) (width : Nat) (slots : List Slot) : Stage where
  slots := slots
  cursor := max σ.cursor (σ.start d + width)
  siblings := σ.sibling d width :: σ.siblings

/-- The stage with condition names. -/
def skip (σ : Stage) (cs : List Slot) : Stage := { σ with slots := σ.slots ++ cs }

/-- The stage inside a group. -/
def enter (σ : Stage) (d : Declaration) (slot : Slot) : Stage where
  slots := σ.slots ++ [slot]
  cursor := σ.start d
  siblings := []

/-- The bytes of a group, once what it holds is laid out. -/
def groupWidth (σ : Stage) (d : Declaration) (inner : Stage) : Nat :=
  (inner.cursor - σ.start d) * Storage.repeatCount d.descriptor.occurs

/-- The stage behind a group. -/
def leave (σ : Stage) (d : Declaration) (slot : Slot) (inner : Stage) : Stage :=
  σ.join d (σ.groupWidth d inner)
    (inner.slots.set σ.slots.length (slot.closed (σ.start d + σ.groupWidth d inner)))

def starts (σ : Stage) : List (String × Nat) := σ.siblings.map fun s => (s.name, s.start)

def storages (σ : Stage) : List (String × Nat) := σ.siblings.map fun s => (s.name, s.storage)

theorem redefined?_map {α : Type} (σ : Stage) (d : Declaration) (f : Sibling → α) :
    d.redefined? (σ.siblings.map fun s => (s.name, f s)) =
      (σ.redefined? d).map fun s => (s.name, f s) := by
  unfold Declaration.redefined? redefined?
  cases d.descriptor.redefines with
  | none => rfl
  | some name =>
    simp only [Option.bind_some, List.find?_map]
    rfl

theorem start_eq (σ : Stage) (d : Declaration) : σ.start d = d.inherited σ.starts σ.cursor := by
  unfold start Declaration.inherited starts
  rw [redefined?_map, Option.map_map]
  rfl

theorem starts_join (σ : Stage) (d : Declaration) (width : Nat) (slots : List Slot) :
    (σ.join d width slots).starts = (d.name, σ.start d) :: σ.starts := rfl

theorem storages_join (σ : Stage) (d : Declaration) (width : Nat) (slots : List Slot) :
    (σ.join d width slots).storages =
      (d.name, d.inherited σ.storages σ.storages.length) :: σ.storages := by
  have h : ((σ.redefined? d).map (·.storage)).getD σ.siblings.length =
      d.inherited σ.storages σ.storages.length := by
    unfold Declaration.inherited storages
    rw [redefined?_map, Option.map_map, List.length_map]
    rfl
  rw [← h]
  rfl

theorem groupWidth_eq {rules : Rules} {usage : Option String} {σ inner : Stage}
    {d : Declaration} {items : Forest} {slot : Slot}
    (h : inner.cursor =
      items.reach rules usage (σ.enter d slot).starts (σ.enter d slot).cursor) :
    σ.groupWidth d inner =
      (items.reach rules usage [] (d.inherited σ.starts σ.cursor) -
        d.inherited σ.starts σ.cursor) * Storage.repeatCount d.descriptor.occurs := by
  have hc : inner.cursor = items.reach rules usage [] (σ.start d) := h
  rw [groupWidth, hc, start_eq]

/-- A group reaches as far as what it holds, or further. -/
theorem cursor_le_groupWidth (σ : Stage) (d : Declaration) (inner : Stage) :
    inner.cursor ≤ σ.start d + σ.groupWidth d inner := by
  have h : inner.cursor - σ.start d ≤ σ.groupWidth d inner :=
    Nat.le_mul_of_pos_right _ (Storage.repeatCount_pos d.descriptor.occurs)
  omega

end Stage

/-- A slot belongs to a declaration that starts at the given position. -/
structure Slot.Declares (slot : Slot) (d : Declaration) (parent target : Option Nat)
    (start : Nat) : Prop where
  kind_eq : slot.field.kind = d.descriptor.kind
  name_eq : slot.field.name = d.name
  occurs_eq : slot.field.occurs = d.descriptor.occurs
  parent_eq : slot.field.parent = parent
  target_eq : slot.field.redefinesTarget = target
  start_eq : slot.field.startPosition = start

/-- A slot has the given bytes. -/
structure Slot.IsPlaced (slot : Slot) (start width : Nat) : Prop where
  extent_eq : (slot.field.startPosition, slot.field.endPosition) = Forest.extent start width
  length_eq : slot.field.storageLength = width
  limit_eq : slot.limit = start + width

/-- Siblings inside a group of the given usage and index are laid out from one stage to another.
Condition names may stand anywhere between the slots of the declarations. -/
inductive Laid (rules : Rules) : Option String → Option Nat → Stage → Forest → Stage → Prop
  | nil {usage : Option String} {parent : Option Nat} {σ : Stage} :
      Laid rules usage parent σ .nil σ
  | skip {usage : Option String} {parent : Option Nat} {σ σ' : Stage} {f : Forest}
      (cs : List Slot) (conditions : ∀ c ∈ cs, c.field.isCondition = true)
      (others : Laid rules usage parent (σ.skip cs) f σ') : Laid rules usage parent σ f σ'
  | item {usage : Option String} {parent : Option Nat} {σ σ' : Stage} {d : Declaration}
      {rest : Forest} (slot : Slot) (kind : d.descriptor.kind = .elementary)
      (declares : slot.Declares d parent ((σ.redefined? d).map (·.index)) (σ.start d))
      (placed : slot.IsPlaced (σ.start d) (d.width rules usage))
      (others : Laid rules usage parent
        (σ.join d (d.width rules usage) (σ.slots ++ [slot])) rest σ') :
      Laid rules usage parent σ (.item d rest) σ'
  | group {usage : Option String} {parent : Option Nat} {σ inner σ' : Stage} {d : Declaration}
      {items rest : Forest} (slot : Slot) (kind : d.descriptor.kind = .group)
      (declares : slot.Declares d parent ((σ.redefined? d).map (·.index)) (σ.start d))
      (held : Laid rules (d.descriptor.usage.or usage) (some σ.slots.length) (σ.enter d slot)
        items inner)
      (others : Laid rules usage parent (σ.leave d slot inner) rest σ') :
      Laid rules usage parent σ (.group d items rest) σ'

/-! ## Bytes -/

/-- The names and bytes of some fields, apart from condition names. -/
def extentsOf (fields : List Field) : List (String × Nat × Nat) :=
  (fields.filter fun f => !f.isCondition).map fun f => (f.name, f.startPosition, f.endPosition)

theorem extentsOf_append (fields more : List Field) :
    extentsOf (fields ++ more) = extentsOf fields ++ extentsOf more := by
  simp [extentsOf]

theorem extentsOf_conditions {cs : List Slot} (h : ∀ c ∈ cs, c.field.isCondition = true) :
    extentsOf (cs.map (·.field)) = [] := by
  have hnone : (cs.map (·.field)).filter (fun f => !f.isCondition) = [] := by
    rw [List.filter_eq_nil_iff]
    intro f hf
    obtain ⟨c, hc, rfl⟩ := List.mem_map.1 hf
    simp [h c hc]
  simp [extentsOf, hnone]

theorem extentsOf_singleton {f : Field} (h : f.isCondition = false) :
    extentsOf [f] = [(f.name, f.startPosition, f.endPosition)] := by
  simp [extentsOf, h]

/-- A closed group has the bytes up to the position behind it. -/
theorem extent_closed {slot : Slot} {start : Nat} (h : slot.field.startPosition = start)
    (width : Nat) :
    ((slot.closed (start + width)).field.startPosition,
      (slot.closed (start + width)).field.endPosition) = Forest.extent start width := by
  simp only [Slot.closed, Field.setExtent, Forest.extent, h, Nat.lt_add_right_iff_pos]

theorem set_closed (slots new : List Slot) (slot closed : Slot) :
    (slots ++ [slot] ++ new).set slots.length closed = slots ++ closed :: new := by
  simp

namespace Laid

variable {rules : Rules} {usage : Option String} {parent : Option Nat} {σ σ' : Stage} {f : Forest}

theorem cursor_eq (h : Laid rules usage parent σ f σ') :
    σ'.cursor = f.reach rules usage σ.starts σ.cursor := by
  induction h with
  | nil => rfl
  | skip cs _ _ ih => exact ih
  | item slot _ _ _ _ ih =>
    rw [ih, Stage.starts_join, Stage.start_eq]
    simp only [Forest.reach, Stage.join, Stage.start_eq]
  | @group usage parent σ inner σ' d items rest slot _ _ _ _ ihh iho =>
    have hw := Stage.groupWidth_eq ihh
    rw [iho, Stage.leave, Stage.starts_join, Stage.start_eq]
    simp only [Forest.reach, Stage.join, Stage.start_eq, hw]

theorem cursor_le (h : Laid rules usage parent σ f σ') : σ.cursor ≤ σ'.cursor := by
  induction h with
  | nil => exact Nat.le_refl _
  | skip cs _ _ ih => exact ih
  | item slot _ _ _ _ ih => exact Nat.le_trans (Nat.le_max_left _ _) ih
  | group slot _ _ _ _ _ ih => exact Nat.le_trans (Nat.le_max_left _ _) ih

/-- The slots only grow, and their new bytes are those of the forest. -/
theorem extents_eq (h : Laid rules usage parent σ f σ') :
    ∃ new, σ'.slots = σ.slots ++ new ∧
      extentsOf (new.map (·.field)) = f.extents rules usage σ.starts σ.cursor := by
  induction h with
  | nil => exact ⟨[], by simp, rfl⟩
  | skip cs hcs _ ih =>
    obtain ⟨new, hs, he⟩ := ih
    refine ⟨cs ++ new, by rw [hs, Stage.skip, List.append_assoc], ?_⟩
    rw [List.map_append, extentsOf_append, extentsOf_conditions hcs, he]
    rfl
  | @item usage parent σ σ' d rest slot hk hd hp _ ih =>
    obtain ⟨new, hs, he⟩ := ih
    have hc : slot.field.isCondition = false := by simp [Field.isCondition, hd.kind_eq, hk]
    have hslot : extentsOf [slot.field] =
        [(d.name, Forest.extent (d.inherited σ.starts σ.cursor) (d.width rules usage))] := by
      rw [extentsOf_singleton hc, hp.extent_eq, hd.name_eq, Stage.start_eq]
    refine ⟨slot :: new, by rw [hs, Stage.join, List.append_assoc]; rfl, ?_⟩
    rw [List.map_cons, ← List.singleton_append, extentsOf_append, hslot, he, Stage.starts_join,
      Stage.start_eq]
    simp only [Forest.extents, Stage.join, Stage.start_eq, List.singleton_append]
  | @group usage parent σ inner σ' d items rest slot hk hd hheld _ ihh iho =>
    obtain ⟨new, hs, he⟩ := ihh
    obtain ⟨more, hs', he'⟩ := iho
    have hw := Stage.groupWidth_eq hheld.cursor_eq
    generalize hclosed : slot.closed (σ.start d + σ.groupWidth d inner) = closed
    have hc : closed.field.isCondition = false := by
      have : slot.field.kind = .group := hd.kind_eq.trans hk
      simp [← hclosed, Slot.closed, Field.isCondition, Field.setExtent, this]
    have hslot : extentsOf [closed.field] =
        [(d.name, Forest.extent (σ.start d) (σ.groupWidth d inner))] := by
      rw [extentsOf_singleton hc, ← extent_closed hd.start_eq, hclosed, ← hd.name_eq, ← hclosed]
      rfl
    refine ⟨closed :: new ++ more, ?_, ?_⟩
    · rw [hs', Stage.leave, Stage.join, hs, hclosed, Stage.enter, set_closed, List.append_assoc,
        List.cons_append]
    · rw [List.map_append, extentsOf_append, List.map_cons, ← List.singleton_append,
        extentsOf_append, hslot, he, he', Stage.leave, Stage.starts_join, Stage.start_eq, hw]
      simp only [Forest.extents, Stage.join, Stage.enter, Stage.starts, Stage.start_eq,
        List.map_nil, List.nil_append, List.cons_append]

end Laid

end DataDivision.Record
