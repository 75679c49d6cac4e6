import DataDivision.Entry.Basic
import DataDivision.Pattern.Engine
import DataDivision.Rules.Document
import DataDivision.Text.Case

/-!
Record type strategies.

A strategy gives a line its record type, or none.  All but patterns look at fixed columns, which
`columns?` reports together with the width of the code that stands there.
-/

namespace DataDivision.Classification

/-- The label of every line when lines are not told apart. -/
def undividedLabel : String := "DATA"

/-- The `length` characters from the column `start`, counted from 1; a line that is too short has
none. -/
def cutColumns? (line : List Char) (start length : Nat) : Option (List Char) :=
  let key := (line.drop (start - 1)).take length
  if key.length = length then some key else none

/-- The text in upper case, unless case matters. -/
def normalizeCase (caseSensitive : Bool) (s : String) : String :=
  if caseSensitive then s else Text.upper s

/-- The mapping with its keys in upper case, unless case matters. -/
def normalizeKeys (caseSensitive : Bool) (m : Mapping) : Mapping :=
  if caseSensitive then m else Mapping.ofPairs (m.map fun (k, v) => (Text.upper k, v))

/-! ## Rules -/

/-- A code in fixed columns is looked up. -/
structure PositionRule where
  start : Nat
  length : Nat
  values : Mapping
  trimValues : Bool := true
  ignoreCase : Bool := false
  deriving DecidableEq, Repr

namespace PositionRule

/-- The code of a line, as it is looked up. -/
def key? (rule : PositionRule) (line : List Char) : Option String :=
  (cutColumns? line rule.start rule.length).map fun key =>
    normalizeCase (!rule.ignoreCase) (String.ofList (if rule.trimValues then Text.trim key else key))

def classify (rule : PositionRule) (line : List Char) : Option String :=
  (rule.key? line).bind (normalizeKeys (!rule.ignoreCase) rule.values).get?

end PositionRule

/-- A single character is looked up.  Where valid characters are listed, each of them that has no
label is its own. -/
structure CharacterRule where
  start : Nat
  values : Mapping
  validCharacters : Option (List String)
  caseSensitive : Bool
  deriving DecidableEq, Repr

def CharacterRule.classify (rule : CharacterRule) (line : List Char) : Option String :=
  (cutColumns? line rule.start 1).bind fun key =>
    let character := normalizeCase rule.caseSensitive (String.ofList key)
    let label := (normalizeKeys rule.caseSensitive rule.values).get? character
    match rule.validCharacters with
    | none => label
    | some valid =>
      if (valid.map (normalizeCase rule.caseSensitive)).contains character then
        some (label.getD character)
      else none

/-- A single character is compared with one after another. -/
structure ConditionalRule where
  start : Nat
  branches : List (Char × String)
  otherwise : Option String
  caseSensitive : Bool
  deriving DecidableEq, Repr

namespace ConditionalRule

def accepts (rule : ConditionalRule) (expected actual : Char) : Bool :=
  if rule.caseSensitive then expected == actual else expected.toLower == actual.toLower

def classify (rule : ConditionalRule) (text : List Char) : Option String :=
  text[rule.start - 1]?.bind fun c =>
    ((rule.branches.find? fun b => rule.accepts b.1 c).map (·.2)).or rule.otherwise

end ConditionalRule

/-- The part of a line that a pattern captures is looked up. -/
structure PatternRule where
  captures? : List Char → Option Pattern.Captures
  mappings : Mapping

def PatternRule.classify (rule : PatternRule) (line : List Char) : Option String :=
  (rule.captures? line).bind fun captures =>
    rule.mappings.get? (String.ofList captures.key)

/-- One test of fixed columns for a given text. -/
structure FieldMatch where
  start : Nat
  length : Nat
  expectedValue : String
  recordType : String
  deriving DecidableEq, Repr

/-- The label of the first test that succeeds. -/
structure MultiFieldRule where
  tests : List FieldMatch
  trimValues : Bool
  deriving DecidableEq, Repr

namespace MultiFieldRule

def classify (rule : MultiFieldRule) (line : List Char) : Option String :=
  rule.tests.findSome? fun test =>
    (cutColumns? line test.start test.length).bind fun value =>
      if String.ofList (if rule.trimValues then Text.trim value else value) = test.expectedValue
      then some test.recordType
      else none

end MultiFieldRule

/-! ## Strategies -/

/-- How lines get their record types. -/
inductive Strategy
  | position (rule : PositionRule)
  | character (rule : CharacterRule)
  | conditional (rule : ConditionalRule)
  | pattern (rule : PatternRule)
  | multiField (rule : MultiFieldRule)
  /-- All lines have one record type. -/
  | undivided

namespace Strategy

def name : Strategy → String
  | position _ => "position-based"
  | character _ => "character-based"
  | conditional _ => "conditional-based"
  | pattern _ => "pattern-based"
  | multiField _ => "multi-field"
  | undivided => "no-record-type"

/-- The record type of a line, if a rule matches. -/
def classify (strategy : Strategy) (line : List Char) : Option String :=
  match strategy with
  | position rule => rule.classify line
  | character rule => rule.classify line
  | conditional rule => rule.classify line
  | pattern rule => rule.classify line
  | multiField rule => rule.classify line
  | undivided => some undividedLabel

/-- The bytes that a record type code takes at the start of a record. -/
def width : Strategy → Nat
  | position rule => rule.length
  | character _ | conditional _ => 1
  | multiField rule => (rule.tests.map (·.length)).foldl max 0
  | pattern _ | undivided => 0

/-- The columns of a source line that hold the record type code. -/
def columns? : Strategy → Option Entry.Columns
  | position rule => some ⟨rule.start - 1, rule.start + rule.length - 1⟩
  | character rule => some ⟨rule.start - 1, rule.start⟩
  | conditional rule => some ⟨rule.start - 1, rule.start⟩
  | multiField rule =>
    match rule.tests with
    | [] => none
    | test :: rest =>
      let start := (rest.map (·.start)).foldl min test.start
      let stop := (rest.map fun t => t.start + t.length).foldl max (test.start + test.length)
      some ⟨start - 1, stop - 1⟩
  | pattern _ | undivided => none

end Strategy

end DataDivision.Classification
