import DataDivision.Field

/-!
Overlapping fields.

Two elementary fields of a record share bytes either because one redefines storage of the other or
by mistake.  `find` sweeps over the fields in the order of their first bytes and reports the
mistakes.
-/

namespace DataDivision.Layout

/-- Two elementary fields, by their indices, that share a byte. -/
structure Overlap where
  /-- The field that starts first. -/
  first : Nat
  /-- The field that starts inside the first one. -/
  second : Nat
  deriving DecidableEq, Repr

abbrev Indexed := Field × Nat

namespace Overlap

/-- The elementary fields that have bytes, with their indices. -/
def stored (fields : List Field) : List Indexed :=
  fields.zipIdx.filter fun (f, _) => f.isElementary && 0 < f.storageLength

/-- The order of the sweep: by first byte, then by index. -/
def precedes (a b : Indexed) : Bool :=
  a.1.startPosition < b.1.startPosition ||
    (a.1.startPosition == b.1.startPosition && a.2 ≤ b.2)

/-- Sweeps over fields in order; `active` holds those met before that may still reach further. -/
def sweep (active : List Indexed) : List Indexed → List Overlap
  | [] => []
  | next :: rest =>
    let reaching := active.filter fun a => next.1.startPosition ≤ a.1.endPosition
    let mistakes := reaching.filter fun a => !a.1.sharesStorageWith next.1
    mistakes.map (fun a => ⟨a.2, next.2⟩) ++ sweep (reaching ++ [next]) rest

/-- The pairs of elementary fields that share bytes without a redefinition. -/
def find (fields : List Field) : List Overlap := sweep [] ((stored fields).mergeSort precedes)

def extent (f : Field) : String := s!"`{f.name}` ({f.startPosition}-{f.endPosition})"

def describe (fields : List Field) (o : Overlap) : String :=
  match fields[o.first]?, fields[o.second]? with
  | some first, some second =>
    extent second ++ " overlaps " ++ extent first ++ " without REDEFINES"
  | _, _ => ""

end Overlap

end DataDivision.Layout
