import DataDivision.Arguments
import DataDivision.FileTree
import DataDivision.Notice
import DataDivision.Report.Basic
import DataDivision.Standard
import DataDivision.Toml.Basic

/-!
Sessions.

A session finds the rules, reads a copybook, compiles it and writes the report.  It reaches files
only through `FileAccess`, so it runs on the files of the machine and on a `FileTree` alike.  The
report is written last: a session that fails leaves no report behind.
-/

namespace DataDivision.Session

def projectRules : String := "copybook/rules.toml"

/-- The rules file of a user, below the directory for configurations. -/
def userRules (directory : String) : String := directory ++ "/copybook/config.toml"

/-- The text without its last point and what follows it, unless nothing would be left. -/
def dropExtension (name : List Char) : List Char :=
  match (name.reverse.dropWhile (· != '.')).drop 1 with
  | [] => name
  | stem => stem.reverse

/-- The name of a copybook: its file name without the extension. -/
def copybookName (path : String) : String :=
  String.ofList (dropExtension ((Text.pieces '/' path.toList).getLast?.getD []))

/-! ## Files -/

/-- The result of an operation on files, as a step of a session. -/
def ofFiles {m : Type → Type} [Monad m] {α : Type} (operation : m (Except FileError α)) :
    ExceptT Failure m α :=
  ExceptT.mk do
    match ← operation with
    | .ok a => return .ok a
    | .error e => return .error (.io e.message)

section Run

variable {m : Type → Type} [Monad m] (engine : Pattern.Engine) (files : FileAccess m)

def readRules (path : String) : ExceptT Failure m Rules.Config := do
  if ← files.existsAt path then
    let text ← ofFiles (files.read path)
    match (Toml.parse? text.toList).bind (Rules.Config.ofDocument? .ignored) with
    | some config => return config
    | none => throw (.io "Failed to parse TOML rules")
  else throw (.io ("Missing rules file: " ++ path))

/-- Reads the first rules file that is there.  Without any the rules have their defaults. -/
def findRules : List String → ExceptT Failure m Rules.Config
  | [] => return {}
  | path :: rest => do
    if ← files.existsAt path then readRules files path else findRules rest

/-- The rules of a session: those that the arguments name, or those of the project or the user. -/
def rulesFor (directory : Option String) (arguments : Arguments) :
    ExceptT Failure m Rules.Config :=
  match arguments.config with
  | some path => readRules files path
  | none => findRules files (projectRules :: directory.toList.map userRules)

/-- Runs a session.  `directory` is the user's directory for configurations, if there is one. -/
def run (directory : Option String) (arguments : Arguments) :
    ExceptT Failure m Compilation := do
  let config ← rulesFor files directory arguments
  let text ← ofFiles (files.read arguments.input)
  match Compilation.compileWith engine config (Source.ofText text.toList) with
  | .error failure => throw failure
  | .ok compilation =>
    let report : Report := ⟨copybookName arguments.input, compilation, text.toList⟩
    ofFiles (files.write arguments.output (report.render arguments.compact))
    return compilation

end Run

/-- Runs a session on a tree of files, with the standard engine for patterns. -/
def runOn (directory : Option String) (arguments : Arguments) (tree : FileTree) :
    Except Failure Compilation × FileTree :=
  (run Pattern.standard FileTree.access directory arguments).run tree

end DataDivision.Session
