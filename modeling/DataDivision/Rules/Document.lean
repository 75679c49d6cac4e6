import DataDivision.Text.Numeral

/-!
Documents.

The value of a structured text, whatever its notation: rules are read from documents, and a notation
only has to produce them.  `Mapping` is a table of texts in the order of its keys.
-/

namespace DataDivision

/-- A structured value. -/
inductive Document
  | null
  | bool (b : Bool)
  | int (n : Int)
  | text (s : String)
  /-- A date or a time, as it is written out in full. -/
  | moment (s : String)
  /-- A scalar of another kind, such as a fraction. -/
  | other
  | list (items : List Document)
  | table (entries : List (String × Document))
  deriving Repr, Inhabited

/-- Texts by their keys, in the order of the keys. -/
abbrev Mapping := List (String × String)

namespace Mapping

/-- Adds a pair, in place of the one that has its key. -/
def insert (key value : String) : Mapping → Mapping
  | [] => [(key, value)]
  | (k, v) :: rest =>
    if key < k then (key, value) :: (k, v) :: rest
    else if key = k then (key, value) :: rest
    else (k, v) :: insert key value rest

/-- The mapping of some pairs; of two with one key the later counts. -/
def ofPairs (pairs : List (String × String)) : Mapping :=
  pairs.foldl (fun m p => insert p.1 p.2 m) []

def get? (key : String) (m : Mapping) : Option String := m.lookup key

theorem get?_insert_self (key value : String) (m : Mapping) :
    get? key (insert key value m) = some value := by
  induction m with
  | nil => simp [insert, get?]
  | cons p m ih =>
    obtain ⟨k, v⟩ := p
    simp only [insert]
    split
    · simp [get?]
    · split
      · simp [get?]
      · rename_i hne
        simp only [get?] at ih ⊢
        rw [List.lookup_cons]
        have : (key == k) = false := by simpa using hne
        simp [this, ih]

end Mapping

namespace Document

def asBool? : Document → Option Bool
  | bool b => some b
  | _ => none

def asText? : Document → Option String
  | text s => some s
  | _ => none

def asInt? (low high : Int) : Document → Option Int
  | int n => if low ≤ n ∧ n ≤ high then some n else none
  | _ => none

def asInt64? : Document → Option Int := asInt? Text.minInt64 Text.maxInt64

def asWord32? (d : Document) : Option Nat := (asInt? 0 Text.maxWord32 d).map Int.toNat

def asList? {α : Type} (read : Document → Option α) : Document → Option (List α)
  | list items => items.mapM read
  | _ => none

/-- The only key of a date or a time that is read as a table. -/
def momentKey : String := "$__toml_private_datetime"

/-- The entries of a table.  A date or a time is a table with one entry. -/
def asTable? : Document → Option (List (String × Document))
  | table entries => some entries
  | moment s => some [(momentKey, text s)]
  | _ => none

/-- A table whose values are all texts. -/
def asMapping? (d : Document) : Option Mapping := do
  let entries ← d.asTable?
  let pairs ← entries.mapM fun (k, v) => v.asText?.map (k, ·)
  return Mapping.ofPairs pairs

/-- Null, or a value that can be read. -/
def asOptional? {α : Type} (read : Document → Option α) : Document → Option (Option α)
  | null => some none
  | d => (read d).map some

end Document

end DataDivision
