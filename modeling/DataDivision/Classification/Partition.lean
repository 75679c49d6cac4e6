import DataDivision.Classification.Strategy

/-!
Lines by record type.

`classify` puts every line that is not a comment into the group of its label; the groups are in the
order of their first lines.
-/

namespace DataDivision.Classification

/-- The lines of each record type, the lines that matched no rule, and the name of the method. -/
structure Partition where
  records : List (String × List Line)
  unrecognized : List Line
  method : String
  deriving DecidableEq, Repr

/-- Adds a line to the group of its label, or begins that group. -/
def addLine (label : String) (line : Line) :
    List (String × List Line) → List (String × List Line)
  | [] => [(label, [line])]
  | (l, lines) :: rest =>
    if l = label then (l, lines ++ [line]) :: rest else (l, lines) :: addLine label line rest

/-- Groups lines by a label, in the order of first appearance. -/
def groupBy (label : Line → String) (lines : List Line) : List (String × List Line) :=
  lines.foldl (fun groups line => addLine (label line) line groups) []

namespace Partition

/-- The number of lines of each record type. -/
def counts (p : Partition) : List (String × Nat) := p.records.map fun (l, lines) => (l, lines.length)

/-- All lines that are not comments under one label. -/
def single (label : String) (lines : List Line) (method : String) : Partition :=
  let content := lines.filter fun line => !line.isComment
  ⟨if content.isEmpty then [] else [(label, content)], [], method⟩

end Partition

/-- Groups the lines that are not comments; those that match no rule have the label `fallback`. -/
def classify (strategy : Strategy) (fallback : String) (lines : List Line) : Partition :=
  let content := lines.filter fun line => !line.isComment
  { records := groupBy (fun line => (strategy.classify line.text).getD fallback) content
    unrecognized := content.filter fun line => (strategy.classify line.text).isNone
    method := strategy.name }

end DataDivision.Classification
