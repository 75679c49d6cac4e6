import DataDivision.Compilation

/-!
Notices.

What is shown to the user: a finding with its place in the source, or a failure that has none.
-/

namespace DataDivision

inductive Notice
  | finding (d : Diagnostic)
  | failure (f : Failure)
  deriving DecidableEq, Repr

namespace Notice

def message : Notice → String
  | finding d => d.message
  | failure f => f.message

def code? : Notice → Option String
  | finding d => d.code.map (·.name)
  | failure (.io _) => some "copybook::io"
  | failure (.rules _) => some "copybook::rules"
  | failure (.source _ _) => none

def severity? : Notice → Option Severity
  | finding d => some d.severity
  | failure _ => none

def help? : Notice → Option String
  | finding d => d.help
  | failure (.rules _) => some "check the rules file against the documented rule types"
  | failure _ => none

/-- The notice refers to source text. -/
def hasSource : Notice → Bool
  | finding _ => true
  | failure _ => false

/-- The text of what lies behind a failure. -/
def cause? : Notice → Option String
  | finding _ => none
  | failure (.io cause) => some cause
  | failure (.rules cause) => some cause.message
  | failure (.source _ _) => none

/-- The marked spans, unless there are none. -/
def labels? : Notice → Option (List Label)
  | finding d => if d.labels.isEmpty then none else some d.labels
  | failure _ => none

/-- The notices of a failed compilation: one for each finding, or one for the failure. -/
def ofFailure : Failure → List Notice
  | .source findings _ => findings.map finding
  | f => [failure f]

/-- The notices of a compilation: its warnings. -/
def ofCompilation (c : Compilation) : List Notice := c.warnings.map finding

end Notice

end DataDivision
