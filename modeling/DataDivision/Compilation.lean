import DataDivision.Classification.Partition
import DataDivision.Layout.Basic
import DataDivision.Record.Basic

/-!
Compiling a copybook.

The lines of a copybook are classified by record type, and the lines of each type become a layout.
Findings are gathered on the way: first the lines that matched no rule, then for each record type
those about its entries and its overlaps, and last a difference of lengths.  If one of them is an
error, there are no layouts.
-/

namespace DataDivision

/-- The layouts of a copybook. -/
structure Compilation where
  /-- By record type, in the order of first appearance. -/
  layouts : List (String × Layout)
  recordCounts : List (String × Nat)
  /-- The lines that matched no rule. -/
  unrecognizedLines : List String
  warnings : List Diagnostic
  processingMethod : String
  deriving DecidableEq, Repr

/-- Why there are no layouts. -/
inductive Failure
  /-- A file could not be read or written. -/
  | io (cause : String)
  | rules (cause : Rules.Error)
  /-- The findings hold an error; `text` is what their spans refer to. -/
  | source (findings : List Diagnostic) (text : List Char)
  deriving DecidableEq, Repr

def Failure.message : Failure → String
  | io cause => "I/O error: " ++ cause
  | rules cause => "Invalid rules: " ++ cause.message
  | source findings _ => summarize findings

namespace Compilation

/-! ## Findings -/

def unrecognized (fallback : String) (line : Line) : Diagnostic :=
  Diagnostic.about .unrecognizedRecord
    s!"line {line.number} matched no record type rule, assigned to `{fallback}`" line.span
    "unrecognized record type"

/-- The label on the source line of a field. -/
def fieldLabel? (source : Source) (f : Field) (message : String) (primary : Bool) : Option Label :=
  if f.line = 0 then none
  else source.lines[f.line - 1]?.map fun line => ⟨line.span, message, primary⟩

def bytesOf (f : Field) : String := s!"{f.startPosition}-{f.endPosition}"

def overlapDiagnostic (source : Source) (severity : Severity) (first second : Field) :
    Diagnostic where
  severity := severity
  code := some .overlap
  message := s!"fields `{first.name}` and `{second.name}` overlap"
  labels :=
    (fieldLabel? source second ("occupies " ++ bytesOf second) true).toList ++
      (fieldLabel? source first ("already occupies " ++ bytesOf first) false).toList
  help := some "declare the overlay with REDEFINES or adjust the PICTURE lengths"

/-- The finding that record types differ in length, if they do. -/
def lengthMismatch? (layouts : List Layout) : Option Diagnostic :=
  match layouts with
  | [] => none
  | first :: rest =>
    if rest.all fun l => l.statistics.totalLength == first.statistics.totalLength then none
    else
      let summary := ", ".intercalate
        (layouts.map fun l => s!"{l.recordType} = {l.statistics.totalLength}")
      some {
        severity := .error
        code := some .lengthMismatch
        message := s!"record types differ in total length ({summary})"
        help := some "pad the shorter records with FILLER or disable uniform_record_length" }

/-! ## Record types -/

/-- A redefinition without a target is an error under strict rules. -/
def promote (strict : Bool) (d : Diagnostic) : Diagnostic :=
  if strict && d.code == some .undefinedTarget then { d with severity := .error } else d

/-- The layout of the lines of one record type, and the findings about them. -/
def compileRecord (rules : Rules) (source : Source) (label : String) (lines : List Line) :
    Layout × List Diagnostic :=
  let config := rules.config
  let strict := config.validation.strictMode
  let record := Record.ofLines rules lines
  let assembler : Layout.Assembler := {
    template := config.layoutGeneration.namingConvention
    checkOverlaps := config.validation.validateFieldOverlaps
    recordLevels := config.fieldProcessing.recordLevels }
  let (layout, overlaps) := assembler.assemble label record.fields
  let severity :=
    if strict || !config.layoutGeneration.allowOverlaps then Severity.error else .warning
  let mistakes := overlaps.filterMap fun o =>
    match record.fields[o.first]?, record.fields[o.second]? with
    | some first, some second => some (overlapDiagnostic source severity first second)
    | _, _ => none
  (layout, record.diagnostics.map (promote strict) ++ mistakes)

/-- The lines of a source by record type. -/
def classify (rules : Rules) (source : Source) : Classification.Partition :=
  match rules.layoutStrategy with
  | .single => Classification.Partition.single rules.fallback source.lines "single_layout"
  | .multi | .custom => Classification.classify rules.strategy rules.fallback source.lines

/-! ## Copybooks -/

def ofSource (rules : Rules) (source : Source) : Except Failure Compilation :=
  let classified := classify rules source
  let compiled := classified.records.map fun (label, lines) =>
    (label, compileRecord rules source label lines)
  let layouts := compiled.map fun (label, layout, _) => (label, layout)
  let mismatch :=
    if rules.config.validation.uniformRecordLength then
      (lengthMismatch? (layouts.map (·.2))).toList
    else []
  let log : Log := ⟨classified.unrecognized.map (unrecognized rules.fallback) ++
    compiled.flatMap (·.2.2) ++ mismatch⟩
  match log.finish with
  | .error findings => .error (.source findings source.text)
  | .ok warnings =>
    .ok {
      layouts := layouts
      recordCounts := classified.counts
      unrecognizedLines := classified.unrecognized.map fun line => String.ofList line.text
      warnings := warnings
      processingMethod := classified.method }

def compileWith (engine : Pattern.Engine) (config : Rules.Config) (source : Source) :
    Except Failure Compilation :=
  match Rules.interpretWith engine config with
  | .error cause => .error (.rules cause)
  | .ok rules => ofSource rules source

/-! ## Totals -/

def totalFields (c : Compilation) : Nat :=
  c.layouts.foldl (fun n (_, l) => n + l.statistics.fieldCount) 0

/-- How many fields there are of each kind, for the kinds that occur, in the order of their
names. -/
def kindCounts (c : Compilation) : List (Kind × Nat) :=
  let fields := c.layouts.flatMap fun (_, l) => l.fields
  ([Kind.condition, .elementary, .group].map fun k => (k, fields.countP fun f => f.kind == k)).filter
    fun (_, n) => 0 < n

end Compilation

end DataDivision
