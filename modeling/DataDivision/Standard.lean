import DataDivision.Compilation
import DataDivision.Pattern.Reader
import DataDivision.Pattern.Search

/-!
The standard engine.

Rules and compilations take any engine for patterns, and what is proved of them holds of every
engine.  What runs takes the one that reads and searches `Pattern.Expr`, which knows no classes of
Unicode properties.
-/

namespace DataDivision

/-- The engine for the patterns of `Pattern.Expr.ofText?`. -/
def Pattern.standard : Engine where
  compile? text := (Expr.ofText? text).map fun expr =>
    let program := expr.program.toArray
    captures? program

/-- Checks a configuration and interprets it, with the standard engine for patterns. -/
def Rules.interpret (config : Config) : Except Error Rules := interpretWith Pattern.standard config

/-- Compiles a source, with the standard engine for patterns. -/
def Compilation.compile (config : Rules.Config) (source : Source) :
    Except Failure Compilation :=
  compileWith Pattern.standard config source

end DataDivision
