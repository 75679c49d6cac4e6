import DataDivision.Compilation
import DataDivision.Report.Value

/-!
Reports.

The report of a compiled copybook is one object, whose members stand in a fixed order; a member that
has nothing to say is left out.
-/

namespace DataDivision

/-- What a report is about: a name, the compiled copybook, and the text it was read from. -/
structure Report where
  name : String
  compilation : Compilation
  source : List Char
  deriving DecidableEq, Repr

namespace Report

open Value

/-- A member for a value that may be absent. -/
def optional {α : Type} (key : String) (write : α → Value) (x : Option α) :
    List (String × Value) :=
  match x with
  | some a => [(key, write a)]
  | none => []

/-- A member for a list that may be empty. -/
def unlessEmpty (key : String) (xs : List Nat) : List (String × Value) :=
  if xs.isEmpty then [] else [(key, list (xs.map nat))]

def fieldValue (f : Field) : Value :=
  object <|
    [("level", nat f.level), ("name", text f.name), ("output_name", text f.outputName),
      ("kind", text f.kind.name), ("filler", bool f.filler)] ++
    optional "picture" text f.picture ++
    optional "usage" text f.usage ++
    [("encoding", text f.encoding.name)] ++
    optional "category" (fun c : Category => text c.name) f.category ++
    [("signed", bool f.signed), ("decimal_places", nat f.decimalPlaces)] ++
    optional "occurs" nat f.occurs ++
    optional "redefines" text f.redefines ++
    optional "redefines_target" nat f.redefinesTarget ++
    optional "value" text f.value ++
    [("start_position", nat f.startPosition), ("end_position", nat f.endPosition),
      ("storage_length", nat f.storageLength)] ++
    optional "parent" nat f.parent ++
    unlessEmpty "children" f.children ++
    unlessEmpty "condition_names" f.conditionNames ++
    optional "host" nat f.host ++
    [("line", nat f.line)]

def layoutValue (l : Layout) : Value :=
  let s := l.statistics
  object
    [("record_type", text l.recordType), ("layout_name", text l.layoutName),
      ("fields", list (l.fields.map fieldValue)), ("field_count", nat s.fieldCount),
      ("group_fields", nat s.groupFields), ("elementary_fields", nat s.elementaryFields),
      ("condition_fields", nat s.conditionFields), ("filler_fields", nat s.fillerFields),
      ("total_length", nat s.totalLength), ("min_length", nat s.minLength),
      ("max_length", nat s.maxLength), ("has_redefines", bool s.hasRedefines),
      ("has_occurs", bool s.hasOccurs), ("has_conditions", bool s.hasConditions),
      ("is_valid", bool l.isValid), ("validation_messages", list (l.messages.map text))]

/-- The number of the line that holds the byte at an offset, counted in line feeds. -/
def lineOf (source : List Char) (offset : Nat) : Nat := Text.feedsBefore offset source + 1

def warningValue (source : List Char) (d : Diagnostic) : Value :=
  object <|
    optional "code" (fun c : Code => text c.name) d.code ++
    [("severity", text d.severity.name), ("message", text d.message)] ++
    optional "line" (fun s : Span => nat (lineOf source s.start)) d.primarySpan?

def value (r : Report) : Value :=
  let c := r.compilation
  object
    [("copybook_name", text r.name),
      ("record_layouts", object (c.layouts.map fun (k, l) => (k, layoutValue l))),
      ("record_counts", object (c.recordCounts.map fun (k, n) => (k, nat n))),
      ("unrecognized_lines", list (c.unrecognizedLines.map text)),
      ("warnings", list (c.warnings.map (warningValue r.source))),
      ("field_type_statistics", object (c.kindCounts.map fun (k, n) => (k.name, nat n))),
      ("total_fields", nat c.totalFields), ("total_record_types", nat c.layouts.length),
      ("processing_method", text c.processingMethod)]

def render (compact : Bool) (r : Report) : String := r.value.render compact

end Report

end DataDivision
