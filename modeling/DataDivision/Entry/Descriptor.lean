import DataDivision.Diagnostic
import DataDivision.Entry.Clause
import DataDivision.Entry.Head
import DataDivision.Storage

/-!
Data description entries.

`scan` reads one entry.  A text that does not begin with a level and a name is no entry; an entry
that begins so and cannot be used is rejected, for one of the four reasons of `Rejection`.
-/

namespace DataDivision.Entry

/-- What one entry declares. -/
structure Descriptor where
  level : Nat
  name : String
  kind : Kind
  /-- The picture string in upper case. -/
  picture : Option String
  /-- The measurements of the picture. -/
  shape : Option Picture
  /-- The usage in upper case. -/
  usage : Option String
  occurs : Option Nat
  redefines : Option String
  /-- The first value, without quotes. -/
  value : Option String
  span : Span
  deriving DecidableEq, Repr

/-- The name of items that are never referred to. -/
def isFillerName (name : String) : Bool := Text.sameIgnoringCase name "FILLER"

def Descriptor.isFiller (d : Descriptor) : Bool := isFillerName d.name

/-- Why an entry is rejected. -/
inductive Rejection
  | unsupportedLevel (digits : String)
  | missingPicture
  | invalidOccurs
  | invalidPicture (text : String) (cause : Picture.Error)
  deriving DecidableEq, Repr

namespace Rejection

def code : Rejection → Code
  | unsupportedLevel _ => .malformedEntry
  | missingPicture => .invalidPicture
  | invalidOccurs => .invalidOccurs
  | invalidPicture _ _ => .invalidPicture

def message (name : String) : Rejection → String
  | unsupportedLevel digits => s!"unsupported level number {digits} for `{name}`"
  | missingPicture => s!"PICTURE clause of `{name}` has no picture string"
  | invalidOccurs => s!"invalid OCCURS count for `{name}`"
  | invalidPicture text cause => s!"invalid PICTURE `{text}` for `{name}`: " ++ cause.message

def help : Rejection → Option String
  | unsupportedLevel _ => some "data description entries use levels 01-49 or 88"
  | invalidOccurs => some "OCCURS needs a positive integer count"
  | _ => none

def diagnostic (r : Rejection) (name : String) (span : Span) : Diagnostic :=
  { Diagnostic.about r.code (r.message name) span "entry skipped" with help := r.help }

end Rejection

/-- The levels of data description entries: 01 to 49, and 88. -/
def isLevel (level : Nat) : Bool := (1 ≤ level && level ≤ 49) || level == 88

/-- The role of an entry follows from its level and clauses. -/
def kindOf (level : Nat) (clauses : Clauses) : Kind :=
  if level = 88 then .condition
  else if clauses.picture.isSome || clauses.usage.any floatUsages.contains then .elementary
  else .group

/-- What an entry with the given head declares, or why it is rejected. -/
def Head.describe (head : Head) (span : Span) : Except Rejection Descriptor := do
  let level := head.levelNumber
  if !isLevel level then
    throw (.unsupportedLevel (String.ofList [head.level.1, head.level.2]))
  let clauses ← match ({} : Clauses).read (Token.split head.clauses) with
    | .ok clauses => pure clauses
    | .error .missingPicture => throw .missingPicture
    | .error .invalidOccurs => throw .invalidOccurs
  let shape ← match clauses.picture with
    | none => pure none
    | some text => match Picture.analyze text with
      | .ok shape => pure (some shape)
      | .error cause => throw (.invalidPicture text cause)
  return {
    level := level
    name := String.ofList head.name
    kind := kindOf level clauses
    picture := clauses.picture
    shape := shape
    usage := clauses.usage
    occurs := clauses.occurs
    redefines := clauses.redefines
    value := clauses.value
    span := span }

/-- Reads one entry: nothing if the text is no entry, and a warning if it is rejected. -/
def scan (text : List Char) (span : Span) : Except Diagnostic (Option Descriptor) :=
  match Head.split? text with
  | none => .ok none
  | some head =>
    match head.describe span with
    | .ok d => .ok (some d)
    | .error r => .error (r.diagnostic (String.ofList head.name) span)

end DataDivision.Entry
