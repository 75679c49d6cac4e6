import DataDivision.Span

/-!
Diagnostics.

A diagnostic is a finding about the source: how grave it is, which rule it belongs to, a message,
marked spans, and advice.  `Log` gathers findings in the order in which they are made; a log that
holds an error is a failure, and any other log is a list of warnings.
-/

namespace DataDivision

inductive Severity
  /-- No layout can be trusted. -/
  | error
  /-- The finding was worked around. -/
  | warning
  deriving DecidableEq, Repr

def Severity.name : Severity → String
  | error => "error"
  | warning => "warning"

/-- The rule that a finding belongs to. -/
inductive Code
  /-- A line matched no record type rule. -/
  | unrecognizedRecord
  /-- An entry has a level number that no entry may have. -/
  | malformedEntry
  /-- A picture is missing or cannot be read. -/
  | invalidPicture
  /-- A usage has no encoding. -/
  | unknownUsage
  /-- A repetition has no positive count. -/
  | invalidOccurs
  /-- A redefinition names no earlier item. -/
  | undefinedTarget
  /-- A redefinition stands at another level than its target. -/
  | levelMismatch
  /-- A condition name follows no elementary item. -/
  | orphanCondition
  /-- Two items share bytes without a redefinition. -/
  | overlap
  /-- Record types that must have one length have several. -/
  | lengthMismatch
  /-- A record reaches beyond the last byte position. -/
  | recordTooLarge
  deriving DecidableEq, Repr

namespace Code

def name : Code → String
  | unrecognizedRecord => "E100"
  | malformedEntry => "E200"
  | invalidPicture => "E201"
  | unknownUsage => "E202"
  | invalidOccurs => "E203"
  | undefinedTarget => "E300"
  | levelMismatch => "E301"
  | orphanCondition => "E302"
  | overlap => "E303"
  | lengthMismatch => "E304"
  | recordTooLarge => "E305"

def description : Code → String
  | unrecognizedRecord => "unrecognized record type"
  | malformedEntry => "malformed field definition"
  | invalidPicture => "invalid picture clause"
  | unknownUsage => "unknown usage"
  | invalidOccurs => "invalid occurs count"
  | undefinedTarget => "undefined redefines target"
  | levelMismatch => "redefines level mismatch"
  | orphanCondition => "orphan condition name"
  | overlap => "overlapping fields"
  | lengthMismatch => "record length mismatch"
  | recordTooLarge => "record too large"

def all : List Code :=
  [unrecognizedRecord, malformedEntry, invalidPicture, unknownUsage, invalidOccurs,
    undefinedTarget, levelMismatch, orphanCondition, overlap, lengthMismatch, recordTooLarge]

def ofName? (text : String) : Option Code := all.find? (·.name == text)

theorem ofName?_name (c : Code) : ofName? c.name = some c := by
  cases c <;> rfl

end Code

/-- A marked span.  The primary labels mark what the finding is about. -/
structure Label where
  span : Span
  message : String
  primary : Bool
  deriving DecidableEq, Repr

structure Diagnostic where
  severity : Severity
  code : Option Code := none
  message : String
  labels : List Label := []
  help : Option String := none
  deriving DecidableEq, Repr

namespace Diagnostic

def isError (d : Diagnostic) : Bool := d.severity == .error

/-- The span of the first primary label. -/
def primarySpan? (d : Diagnostic) : Option Span := (d.labels.find? (·.primary)).map (·.span)

/-- Severity, code and message on one line. -/
def display (d : Diagnostic) : String :=
  let code := match d.code with
    | some c => "[" ++ c.name ++ "]"
    | none => ""
  d.severity.name ++ code ++ ": " ++ d.message

/-- A warning about one entry, marked where it stands. -/
def about (code : Code) (message : String) (span : Span) (label : String) : Diagnostic where
  severity := .warning
  code := some code
  message := message
  labels := [⟨span, label, true⟩]

end Diagnostic

/-- The summary of a list of findings: the first error, or else the first finding, and how many
more there are. -/
def summarize (findings : List Diagnostic) : String :=
  match (findings.find? (·.isError)).or findings.head? with
  | none => ""
  | some first =>
    if 1 < findings.length then first.display ++ s!" (+{findings.length - 1} more)"
    else first.display

/-- Findings in the order in which they were made. -/
structure Log where
  findings : List Diagnostic := []
  deriving DecidableEq, Repr

namespace Log

def emit (log : Log) (d : Diagnostic) : Log := ⟨log.findings ++ [d]⟩

def extend (log : Log) (ds : List Diagnostic) : Log := ⟨log.findings ++ ds⟩

def hasErrors (log : Log) : Bool := log.findings.any (·.isError)

/-- The warnings, or all findings as a failure when one of them is an error. -/
def finish (log : Log) : Except (List Diagnostic) (List Diagnostic) :=
  if log.hasErrors then .error log.findings else .ok log.findings

theorem finish_eq_ok_iff (log : Log) (ds : List Diagnostic) :
    log.finish = .ok ds ↔ log.findings = ds ∧ ∀ d ∈ ds, d.isError = false := by
  unfold finish hasErrors
  split
  · rename_i h
    simp only [reduceCtorEq, false_iff, not_and]
    rintro rfl hall
    obtain ⟨d, hd, he⟩ := List.any_eq_true.1 h
    simp [hall d hd] at he
  · rename_i h
    simp only [List.any_eq_true, not_exists, not_and, Bool.not_eq_true] at h
    constructor
    · intro he
      injection he with he
      subst he
      exact ⟨rfl, h⟩
    · rintro ⟨rfl, -⟩
      rfl

end Log

end DataDivision
