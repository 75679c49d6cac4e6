import DataDivision.Session

/-!
The command line.

Reads the arguments, runs a session on the files of the machine, and shows what it has to say on the
error stream.
-/

namespace DataDivision.Console

/-- What is asked for with `--help`. -/
def usage : String :=
  "Compiles a copybook into record layouts\n\n" ++
  "Usage: copybook [OPTIONS] <INPUT>\n\n" ++
  "Arguments:\n" ++
  "  <INPUT>  Path to the input copybook\n\n" ++
  "Options:\n" ++
  "  -o, --output <OUTPUT>        Path to the output JSON report [default: out.json]\n" ++
  "  -c, --config <CONFIG>        Path to the rules file (TOML)\n" ++
  "      --log-level <LOG_LEVEL>  Log level (off, error, warn, info, debug, trace) " ++
  "[default: info]\n" ++
  "      --compact                Write the report without indentation\n" ++
  "  -h, --help                   Print help\n" ++
  "  -V, --version                Print version\n"

def version : String := "copybook 0.1.0"

def complaint : Arguments.Error → String
  | .missingInput => "the input copybook is missing"
  | .unknownArgument => "unexpected argument"
  | .missingValue => "an option needs a value"
  | .unexpectedValue => "a value stands where none is expected"
  | .givenTwice => "an argument cannot be used multiple times"
  | .helpRequested => usage
  | .versionRequested => version

/-- The levels of the log, from none to everything. -/
def levels : List String := ["off", "error", "warn", "info", "debug", "trace"]

/-- The number of a level, whatever its case. -/
def levelNumber? (name : String) : Option Nat :=
  levels.findIdx? fun level => Text.sameIgnoringCase level name

def shownFrom : Severity → Nat
  | .error => 1
  | .warning => 2

/-- A notice on one line, with the advice on the next. -/
def line (n : Notice) : String :=
  let first := match n with
    | .finding d => d.display
    | .failure f => f.message
  match n.help? with
  | some help => first ++ "\n  help: " ++ help
  | none => first

/-- The kind of a failure that the machine reports by number. -/
def fileError : IO.Error → FileError
  | .noFileOrDirectory _ _ _ => .notFound
  | .inappropriateType _ 20 _ => .notDirectory
  | .inappropriateType _ 21 _ => .isDirectory
  | e => .other (toString e)

/-- The outcome of an operation on files. -/
def attempt {α : Type} (operation : IO α) : IO (Except FileError α) := do
  match ← operation.toBaseIO with
  | .ok a => return .ok a
  | .error e => return .error (fileError e)

def machine : FileAccess IO where
  existsAt path := do
    match ← attempt (IO.FS.Handle.mk path .read) with
    | .ok _ => return true
    | .error _ => return false
  read path := do
    match ← attempt (IO.FS.readBinFile path) with
    | .error e => return .error e
    | .ok bytes =>
      match String.fromUTF8? bytes with
      | some text => return .ok text
      | none => return .error .notText
  write path text := attempt (IO.FS.writeFile path text)

def configurations : IO (Option String) := do
  match ← IO.getEnv "XDG_CONFIG_HOME" with
  | some directory => return some directory
  | none => return (← IO.getEnv "HOME").map (· ++ "/.config")

/-- Runs a session and answers with the status of the process. -/
def session (arguments : Arguments) : IO UInt32 := do
  let level ← match levelNumber? arguments.logLevel with
    | some n => pure n
    | none =>
      IO.eprintln s!"Invalid log level: {arguments.logLevel}. Using 'warn' instead."
      pure 2
  let say (severity : Severity) (notices : List Notice) : IO Unit := do
    if shownFrom severity ≤ level then
      for n in notices do
        IO.eprintln (line n)
  match ← (Session.run Pattern.standard machine (← configurations) arguments).run with
  | .ok compilation =>
    say .warning (Notice.ofCompilation compilation)
    return 0
  | .error failure =>
    say .error (Notice.ofFailure failure)
    return 1

end DataDivision.Console

open DataDivision in
def main (arguments : List String) : IO UInt32 := do
  match Arguments.parse arguments with
  | .ok arguments => Console.session arguments
  | .error .helpRequested =>
    IO.print Console.usage
    return 0
  | .error .versionRequested =>
    IO.println Console.version
    return 0
  | .error e =>
    IO.eprintln ("error: " ++ Console.complaint e)
    return 2
