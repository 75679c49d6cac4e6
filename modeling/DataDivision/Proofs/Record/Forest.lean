import DataDivision.Proofs.Record.Steps

/-!
Forests of declarations.

The declarations of a record form a forest, in which groups hold other declarations.  This module
lays a forest out by recursion over its trees, without a cursor that goes back and without open
scopes: `extents` are the bytes of all declarations, and `reach` is the position behind them.
-/

namespace DataDivision

/-- Declarations side by side, elementary items and groups with what they hold. -/
inductive Forest
  | nil
  | item (d : Declaration) (rest : Forest)
  | group (d : Declaration) (items rest : Forest)
  deriving DecidableEq, Repr

namespace Declaration

def name (d : Declaration) : String := d.descriptor.name

/-- The sibling that a declaration redefines, of those before it, latest first. -/
def redefined? {α : Type} (d : Declaration) (siblings : List (String × α)) : Option (String × α) :=
  d.descriptor.redefines.bind fun name =>
    siblings.find? fun s => Text.sameIgnoringCase s.1 name

/-- What a redefinition takes over from the sibling it redefines, and another declaration has of its
own. -/
def inherited {α : Type} (d : Declaration) (siblings : List (String × α)) (own : α) : α :=
  ((d.redefined? siblings).map (·.2)).getD own

/-- A redefinition names a sibling before it, and nothing that comes later has that name.  Of the
entries since the first sibling, latest first, the siblings are marked. -/
def RedefinesSibling (d : Declaration) (earlier : List (String × Bool)) : Prop :=
  ∀ name ∈ d.descriptor.redefines, ∃ e,
    earlier.find? (fun e => Text.sameIgnoringCase e.1 name) = some e ∧ e.2 = true

/-- All siblings between a redefinition and the sibling it redefines lay out the same storage.  A
storage is given by the place, among its siblings, of the one that it belongs to. -/
def IsContiguous (d : Declaration) (siblings : List (String × Nat)) : Prop :=
  ∀ name ∈ d.descriptor.redefines,
    ∀ target ∈ siblings.find? (fun s => Text.sameIgnoringCase s.1 name),
      ∀ s ∈ siblings.takeWhile (fun s => !Text.sameIgnoringCase s.1 name), s.2 = target.2

/-- The bytes of an elementary item inside a group of the given usage. -/
def width (rules : Rules) (usage : Option String) (d : Declaration) : Nat :=
  let encoding := (rules.usages.resolve (d.descriptor.usage.or usage)).getD .character
  Storage.length .elementary d.descriptor.shape encoding d.descriptor.occurs

end Declaration

namespace Forest

/-- The declarations in source order. -/
def toList : Forest → List Declaration
  | nil => []
  | item d rest => d :: rest.toList
  | group d items rest => d :: (items.toList ++ rest.toList)

/-! ## Well-formed forests -/

/-- The entries up to the end of a group, latest first. -/
def behindGroup (d : Declaration) (items : Forest) (earlier : List (String × Bool)) :
    List (String × Bool) :=
  items.toList.reverse.map (fun x => (x.name, false)) ++ (d.name, true) :: earlier

/-- All siblings have the given level, what a group holds has a deeper one, and redefinitions name
siblings.  `earlier` holds the entries since the first sibling. -/
def WellFormed : Forest → Nat → List (String × Bool) → Prop
  | nil, _, _ => True
  | item d rest, level, earlier =>
    d.descriptor.kind = .elementary ∧ d.descriptor.level = level ∧ d.RedefinesSibling earlier ∧
      rest.WellFormed level ((d.name, true) :: earlier)
  | group d items rest, level, earlier =>
    d.descriptor.kind = .group ∧ d.descriptor.level = level ∧ d.RedefinesSibling earlier ∧
      (∃ inner, level < inner ∧ items.WellFormed inner []) ∧
      rest.WellFormed level (behindGroup d items earlier)

/-- No sibling between a redefinition and its target lays out another storage.  `siblings` holds the
siblings before with the storage that each lays out. -/
def Contiguous : Forest → List (String × Nat) → Prop
  | nil, _ => True
  | item d rest, siblings =>
    d.IsContiguous siblings ∧
      rest.Contiguous ((d.name, d.inherited siblings siblings.length) :: siblings)
  | group d items rest, siblings =>
    d.IsContiguous siblings ∧ items.Contiguous [] ∧
      rest.Contiguous ((d.name, d.inherited siblings siblings.length) :: siblings)

/-! ## Layout -/

/-- The position behind siblings that are laid out from the position `p`.  `siblings` holds the ones
before with their starts. -/
def reach (rules : Rules) : Forest → Option String → List (String × Nat) → Nat → Nat
  | nil, _, _, p => p
  | item d rest, usage, siblings, p =>
    let start := d.inherited siblings p
    rest.reach rules usage ((d.name, start) :: siblings) (max p (start + d.width rules usage))
  | group d items rest, usage, siblings, p =>
    let start := d.inherited siblings p
    let inside := items.reach rules (d.descriptor.usage.or usage) [] start - start
    let width := inside * Storage.repeatCount d.descriptor.occurs
    rest.reach rules usage ((d.name, start) :: siblings) (max p (start + width))

/-- The first and the last byte of a declaration. -/
def extent (start width : Nat) : Nat × Nat :=
  (start, if 0 < width then start + width - 1 else start)

/-- The names and bytes of all declarations in source order. -/
def extents (rules : Rules) :
    Forest → Option String → List (String × Nat) → Nat → List (String × Nat × Nat)
  | nil, _, _, _ => []
  | item d rest, usage, siblings, p =>
    let start := d.inherited siblings p
    let width := d.width rules usage
    (d.name, extent start width) ::
      rest.extents rules usage ((d.name, start) :: siblings) (max p (start + width))
  | group d items rest, usage, siblings, p =>
    let start := d.inherited siblings p
    let inside := items.reach rules (d.descriptor.usage.or usage) [] start - start
    let width := inside * Storage.repeatCount d.descriptor.occurs
    (d.name, extent start width) ::
      (items.extents rules (d.descriptor.usage.or usage) [] start ++
        rest.extents rules usage ((d.name, start) :: siblings) (max p (start + width)))

end Forest

end DataDivision
