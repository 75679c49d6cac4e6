import DataDivision.Toml.Quoted
import DataDivision.Toml.Scalar
import DataDivision.Toml.Table

/-!
Reading the TOML notation.

A text is a sequence of lines; each is empty, the header of a table, or an assignment to a key of
the table that was opened last.  Values in brackets and braces may run over several lines.
-/

namespace DataDivision.Toml

/-! ## Keys -/

def isKeyChar (c : Char) : Bool := c.isAlphanum || c == '_' || c == '-'

/-- One part of a key: a word, or a text in quotes on one line. -/
def keyPart? (cs : List Char) : Option (String × List Char) :=
  let read := match cs with
    | '"' :: rest => basic? rest
    | '\'' :: rest => literal? rest
    | _ =>
      let word := cs.takeWhile isKeyChar
      if word.isEmpty then none else some (word, cs.dropWhile isKeyChar)
  read.map fun (name, rest) => (String.ofList name, rest)

/-- How deep brackets and braces may stand inside one another, and how many parts a key may have. -/
def maxDepth : Nat := 80

/-- A key: parts with points between them, `parts` at most. -/
def keyWithin? : Nat → List Char → Option (Path × List Char)
  | 0, _ => none
  | parts + 1, cs => do
    let (part, rest) ← keyPart? (dropBlanks cs)
    match dropBlanks rest with
    | '.' :: after =>
      let (path, rest) ← keyWithin? parts after
      return (⟨part :: path.parents, path.last⟩, rest)
    | rest => return (⟨[], part⟩, rest)

def key? : List Char → Option (Path × List Char) := keyWithin? maxDepth

/-! ## Values -/

/-- Items with commas between them, up to a closing bracket; a comma may follow the last one. -/
def items? {α : Type} (read : List Char → Option (α × List Char)) (close : Char)
    (cs : List Char) : Option (List α × List Char) := do
  match ← skipLines false cs with
  | [] => none
  | c :: rest =>
    if c = close then return ([], rest)
    else
      let (item, rest) ← read (c :: rest)
      match ← skipLines false rest with
      | [] => none
      | c :: rest =>
        if c = close then return ([item], rest)
        else if c = ',' ∧ rest.length < cs.length then
          let (more, rest) ← items? read close rest
          return (item :: more, rest)
        else none
termination_by cs.length

/-- A key, an equals sign and a value; `gap` passes over what may stand around the sign. -/
def assignment? (gap : List Char → Option (List Char))
    (value : List Char → Option (Document × List Char)) (cs : List Char) :
    Option ((Path × Document) × List Char) := do
  let (path, rest) ← key? cs
  match ← gap rest with
  | '=' :: rest =>
    let (d, rest) ← value (← gap rest)
    return ((path, d), rest)
  | _ => none

/-- A value; `depth` brackets may stand inside one another. -/
def valueWithin? : Nat → List Char → Option (Document × List Char)
  | depth, cs =>
    match cs with
    | '[' :: rest =>
      match depth with
      | 0 => none
      | depth + 1 =>
        (items? (valueWithin? depth) ']' rest).map fun (ds, rest) => (.list ds, rest)
    | '\x7b' :: rest =>
      match depth with
      | 0 => none
      | depth + 1 => do
        let (pairs, rest) ← items? (assignment? (skipLines false) (valueWithin? depth)) '\x7d' rest
        return (← Entries.ofAssignments? pairs, rest)
    | _ =>
      match quoted? cs with
      | some (s, rest) => some (.text (String.ofList s), rest)
      | none => scalar? cs

def value? : List Char → Option (Document × List Char) := valueWithin? maxDepth

/-! ## Lines -/

inductive Statement
  /-- The header of a table. -/
  | table (path : Path)
  /-- The header of one more table of a series. -/
  | element (path : Path)
  | assign (path : Path) (value : Document)

def statement? : List Char → Option (Statement × List Char)
  | '[' :: '[' :: rest => do
    let (path, rest) ← key? rest
    match rest with
    | ']' :: ']' :: rest => return (.element path, rest)
    | _ => none
  | '[' :: rest => do
    let (path, rest) ← key? rest
    match rest with
    | ']' :: rest => return (.table path, rest)
    | _ => none
  | cs => do
    let ((path, value), rest) ← assignment? (some ∘ dropBlanks) value? cs
    return (.assign path value, rest)

/-- The statements of a text, each on a line of its own. -/
def statements? (cs : List Char) : Option (List Statement) := do
  match ← skipLines false cs with
  | [] => return []
  | c :: rest =>
    let (s, after) ← statement? (c :: rest)
    if endsLine after ∧ after.length < cs.length then return s :: (← statements? after)
    else none
termination_by cs.length

/-! ## Documents -/

/-- A document being built: all tables so far, and the path of the one opened last. -/
structure Draft where
  entries : Entries := []
  current : List String := []

def Draft.step (d : Draft) : Statement → Option Draft
  | .table path => do
    return ⟨← Entries.openTable path d.entries, path.parents ++ [path.last]⟩
  | .element path => do
    return ⟨← Entries.openElement path d.entries, path.parents ++ [path.last]⟩
  | .assign path value => do
    return ⟨← Entries.within (Entries.assign path value) d.current d.entries, d.current⟩

/-- The text without a byte order mark in front. -/
def dropMark : List Char → List Char
  | '\ufeff' :: rest => rest
  | cs => cs

def parse? (text : List Char) : Option Document := do
  let draft ← (← statements? (dropMark text)).foldlM Draft.step {}
  return .table (documents draft.entries)

end DataDivision.Toml
