import DataDivision.Rules.Document

/-!
Tables under construction.

A table grows by headers, which open a table at a path, and by assignments, whose keys may be paths
too.  No key is given twice: a header opens a table once, a dotted key never reaches into a table
that a header has opened, and a value in braces or brackets is complete where it stands.
-/

namespace DataDivision.Toml

/-- How a table came to be. -/
inductive Origin
  /-- A header opened it. -/
  | header
  /-- It lies on the path of a header. -/
  | onPath
  /-- It lies on the path of a dotted key. -/
  | dotted
  deriving DecidableEq, Repr

inductive Node
  | value (d : Document)
  | table (origin : Origin) (entries : List (String × Node))
  /-- Tables under one name, each opened by a header in double brackets. -/
  | series (tables : List (List (String × Node)))

/-- The keys of a table with their nodes, in the order of their first use. -/
abbrev Entries := List (String × Node)

/-- A key of several parts: the parts before the last one, and the last one. -/
structure Path where
  parents : List String
  last : String
  deriving DecidableEq, Repr

/-! ## Documents -/

mutual

def Node.document : Node → Document
  | .value d => d
  | .table _ entries => .table (documents entries)
  | .series tables => .list (tablesOf tables)

def documents : List (String × Node) → List (String × Document)
  | [] => []
  | (key, node) :: rest => (key, node.document) :: documents rest

def tablesOf : List (List (String × Node)) → List Document
  | [] => []
  | entries :: rest => .table (documents entries) :: tablesOf rest

end

namespace Entries

/-- Puts a node under a key, in place of the one there. -/
def put (key : String) (node : Node) : Entries → Entries
  | [] => [(key, node)]
  | (k, n) :: rest => if k = key then (key, node) :: rest else (k, n) :: put key node rest

/-! ## Headers -/

/-- Changes the table at a path as headers see it: tables of any origin, and the last table of a
series. -/
def within (change : Entries → Option Entries) : List String → Entries → Option Entries
  | [], entries => change entries
  | key :: path, entries =>
    match entries.lookup key with
    | none => (within change path []).map fun inner => put key (.table .onPath inner) entries
    | some (.table origin inner) =>
      (within change path inner).map fun inner => put key (.table origin inner) entries
    | some (.series tables) => do
      let inner ← within change path (← tables.getLast?)
      return put key (.series (tables.dropLast ++ [inner])) entries
    | some (.value _) => none

/-- Opens the table of a header.  It may lie on the path of an earlier one. -/
def openTable (path : Path) : Entries → Option Entries :=
  within (fun entries =>
    match entries.lookup path.last with
    | none => some (put path.last (.table .header []) entries)
    | some (.table .onPath inner) => some (put path.last (.table .header inner) entries)
    | some _ => none) path.parents

/-- Opens one more table of a series. -/
def openElement (path : Path) : Entries → Option Entries :=
  within (fun entries =>
    match entries.lookup path.last with
    | none => some (put path.last (.series [[]]) entries)
    | some (.series tables) => some (put path.last (.series (tables ++ [[]])) entries)
    | some _ => none) path.parents

/-! ## Assignments -/

/-- Gives a key its value, for the first time. -/
def define (key : String) (value : Document) (entries : Entries) : Option Entries :=
  if (entries.lookup key).isSome then none else some (put key (.value value) entries)

/-- Gives a dotted key its value.  The tables on its path are dotted or lie on the path of a header;
a series may only be passed through. -/
def assignDotted (last : String) (value : Document) : List String → Entries → Option Entries
  | [], entries => define last value entries
  | key :: path, entries =>
    match entries.lookup key with
    | none =>
      (assignDotted last value path []).map fun inner => put key (.table .dotted inner) entries
    | some (.table .dotted inner) =>
      (assignDotted last value path inner).map fun inner => put key (.table .dotted inner) entries
    | some (.table .onPath inner) =>
      (assignDotted last value path inner).map fun inner => put key (.table .onPath inner) entries
    | some (.series tables) => do
      if path.isEmpty then none
      else
        let inner ← assignDotted last value path (← tables.getLast?)
        return put key (.series (tables.dropLast ++ [inner])) entries
    | some (.table .header _) | some (.value _) => none

def assign (path : Path) (value : Document) : Entries → Option Entries :=
  assignDotted path.last value path.parents

def ofAssignments? (assignments : List (Path × Document)) : Option Document := do
  let entries ← assignments.foldlM (fun entries (path, value) => assign path value entries) []
  return .table (documents entries)

end Entries

end DataDivision.Toml
