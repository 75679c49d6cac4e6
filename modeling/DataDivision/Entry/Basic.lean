import DataDivision.Entry.Descriptor
import DataDivision.Source

/-!
Entries of a source.

An entry may run over several physical lines.  `ofLines` drops the sequence area and comments of
each line and joins the lines that belong together.
-/

namespace DataDivision

/-- The text of one entry, its bytes in the source, and the line it starts on. -/
structure Entry where
  text : List Char
  span : Span
  line : Nat
  deriving DecidableEq, Repr

namespace Entry

/-! ## The kept part of a line -/

/-- Six digits at the start of a line are a sequence area. -/
def hasSequenceArea (text : List Char) : Bool :=
  6 ≤ text.length && (text.take 6).all Char.isDigit

/-- The number of characters before the kept part: a sequence area and the column after it. -/
def marginOf (text : List Char) : Nat := if hasSequenceArea text then 7 else 0

/-- The text before the first comment mark. -/
def beforeComment : List Char → List Char
  | [] => []
  | [c] => [c]
  | c :: d :: rest => if c = '*' ∧ d = '>' then [] else c :: beforeComment (d :: rest)

/-- The part of a line that is read: without sequence area, comment and trailing blanks. -/
def kept (text : List Char) : List Char :=
  Text.trimEnd (beforeComment (text.drop (marginOf text)))

/-- Where the kept part starts, in bytes. -/
def keptOffset (text : List Char) : Nat := Text.byteLength (text.take (marginOf text))

/-- Reads a physical line as an entry of its own. -/
def tokenize (text : List Char) : Option Descriptor :=
  let offset := keptOffset text
  match scan (kept text) (Span.of offset (offset + Text.byteLength (kept text))) with
  | .ok d => d
  | .error _ => none

/-! ## Record type codes -/

/-- Columns of a line, counted from 0, up to and without `stop`. -/
structure Columns where
  start : Nat
  stop : Nat
  deriving DecidableEq, Repr

def Columns.contains (columns : Columns) (i : Nat) : Bool :=
  columns.start ≤ i && i < columns.stop

/-- The line with the given columns blanked. -/
def mask (columns : Columns) (text : List Char) : List Char :=
  text.mapIdx fun i c => if columns.contains i then ' ' else c

/-- The line as it is read: with the record type code blanked if only then it starts an entry. -/
def unmask (code : Option Columns) (text : List Char) : List Char :=
  match code with
  | none => text
  | some columns =>
    if startsEntry (kept text) then text
    else if startsEntry (kept (mask columns text)) then mask columns text
    else text

/-! ## Joining lines -/

/-- The entry that a single line makes, unless nothing of it is kept. -/
def ofLine? (code : Option Columns) (line : Line) : Option Entry :=
  let raw := unmask code line.text
  let text := kept raw
  if Text.allBlank text then none
  else
    let offset := keptOffset raw
    some ⟨text, line.span.slice offset (offset + Text.byteLength text), line.number⟩

def isTerminated (e : Entry) : Bool := (Text.trimEnd e.text).getLast? == some '.'

/-- The entry with a further line joined to it. -/
def append (e next : Entry) : Entry :=
  { e with text := e.text ++ ' ' :: Text.trim next.text, span := e.span.union next.span }

/-- The entry may be continued: it begins with a level and a name and has not met its period. -/
def isOpen (e : Entry) : Bool := startsEntry e.text && !e.isTerminated

/-- The pending entry continued by the next line, unless that line starts an entry. -/
def continued? (pending : Option Entry) (next : Entry) : Option Entry :=
  if startsEntry next.text then none else pending.map (·.append next)

/-- Joins lines into entries.  `pending` is an entry that a line may still continue. -/
def join (code : Option Columns) : Option Entry → List Line → List Entry
  | pending, [] => pending.toList
  | pending, line :: rest =>
    match ofLine? code line with
    | none => join code pending rest
    | some next =>
      match continued? pending next with
      | some e => if e.isTerminated then e :: join code none rest else join code (some e) rest
      | none =>
        pending.toList ++
          if next.isOpen then join code (some next) rest else next :: join code none rest

def ofLines (code : Option Columns) (lines : List Line) : List Entry := join code none lines

end Entry

end DataDivision
