/-!
Command line arguments.

Arguments are read from left to right.  An option with a value takes it from the same argument or
from the next one that does not look like an option; the value only counts once something else
follows, so a second use of an option is noticed there.  After two hyphens alone everything names
the input.
-/

namespace DataDivision

/-- What the command line asks for. -/
structure Arguments where
  /-- The copybook to read. -/
  input : String
  /-- Where the report is written. -/
  output : String := "out.json"
  /-- The rules file, if one is named. -/
  config : Option String := none
  logLevel : String := "info"
  /-- The report stands on one line. -/
  compact : Bool := false
  deriving DecidableEq, Repr

namespace Arguments

/-- Why the arguments are not accepted, or what they ask for instead of a run. -/
inductive Error
  | missingInput
  | unknownArgument
  /-- An option stands without its value. -/
  | missingValue
  /-- A switch has a value. -/
  | unexpectedValue
  /-- An option or a switch is given twice. -/
  | givenTwice
  | helpRequested
  | versionRequested
  deriving DecidableEq, Repr

/-- The options that have a value. -/
inductive Setting
  | output
  | config
  | logLevel
  deriving DecidableEq, Repr

/-- The options that have none. -/
inductive Switch
  | compact
  | help
  | version
  deriving DecidableEq, Repr

/-- An option of either kind. -/
inductive Flag
  | setting (s : Setting)
  | switch (s : Switch)
  deriving DecidableEq, Repr

/-- The option that is written with two hyphens. -/
def Flag.ofLong? : String → Option Flag
  | "output" => some (.setting .output)
  | "config" => some (.setting .config)
  | "log-level" => some (.setting .logLevel)
  | "compact" => some (.switch .compact)
  | "help" => some (.switch .help)
  | "version" => some (.switch .version)
  | _ => none

/-- The option that is written with one hyphen. -/
def Flag.ofShort? : Char → Option Flag
  | 'o' => some (.setting .output)
  | 'c' => some (.setting .config)
  | 'h' => some (.switch .help)
  | 'V' => some (.switch .version)
  | _ => none

/-! ## Reading -/

/-- What has been read so far.  The last option with a value is pending until something else
follows. -/
structure Reading where
  input : Option String := none
  output : Option String := none
  config : Option String := none
  logLevel : Option String := none
  compact : Bool := false
  pending : Option (Setting × Option String) := none
  /-- Two hyphens have been met. -/
  escaped : Bool := false
  deriving DecidableEq, Repr

namespace Reading

def value? (r : Reading) : Setting → Option String
  | .output => r.output
  | .config => r.config
  | .logLevel => r.logLevel

/-- Gives an option its value, for the first time. -/
def assign (r : Reading) (s : Setting) (value : String) : Except Error Reading :=
  if (r.value? s).isSome then .error .givenTwice
  else
    match s with
    | .output => .ok { r with output := some value }
    | .config => .ok { r with config := some value }
    | .logLevel => .ok { r with logLevel := some value }

/-- Closes the pending option. -/
def settle (r : Reading) : Except Error Reading :=
  match r.pending with
  | none => .ok r
  | some (_, none) => .error .missingValue
  | some (s, some value) => assign { r with pending := none } s value

def turnOn (r : Reading) (s : Switch) : Except Error Reading := do
  let r ← r.settle
  match s with
  | .help => .error .helpRequested
  | .version => .error .versionRequested
  | .compact => if r.compact then .error .givenTwice else .ok { r with compact := true }

/-- Meets an option with its value, or with its value still to come. -/
def meet (r : Reading) (s : Setting) (value : Option String) : Except Error Reading := do
  let r ← r.settle
  match value with
  | some v => r.assign s v
  | none => .ok { r with pending := some (s, none) }

/-- An argument with two hyphens in front of `body`. -/
def long (r : Reading) (body : List Char) : Except Error Reading :=
  let name := String.ofList (body.takeWhile (· != '='))
  let value := match body.dropWhile (· != '=') with
    | [] => none
    | _ :: rest => some (String.ofList rest)
  match Flag.ofLong? name, value with
  | none, _ => .error .unknownArgument
  | some (.setting s), _ => r.meet s value
  | some (.switch _), some _ => .error .unexpectedValue
  | some (.switch s), none => r.turnOn s

/-- The value that follows an option of one letter directly; an equals sign may stand between
them. -/
def attached : List Char → Option String
  | [] => none
  | '=' :: rest => some (String.ofList rest)
  | rest => some (String.ofList rest)

/-- An argument with one hyphen: switches, and at last an option with the rest as its value. -/
def short (r : Reading) : List Char → Except Error Reading
  | [] => .ok r
  | c :: rest =>
    match Flag.ofShort? c with
    | none => .error .unknownArgument
    | some (.setting s) => r.meet s (attached rest)
    | some (.switch s) =>
      match r.turnOn s with
      | .ok r => short r rest
      | .error e => .error e

/-- An argument that is no option: the value that the pending option waits for, or the input. -/
def plain (r : Reading) (argument : String) : Except Error Reading :=
  match r.pending, r.escaped with
  | some (s, none), false => .ok { r with pending := some (s, some argument) }
  | _, _ =>
    if r.input.isSome then .error .unknownArgument
    else do
      let r ← r.settle
      return { r with input := some argument }

def step (r : Reading) (argument : String) : Except Error Reading :=
  if r.escaped then r.plain argument
  else
    match argument.toList with
    | ['-', '-'] => .ok { r with escaped := true }
    | '-' :: '-' :: body => r.long body
    | ['-'] => r.plain argument
    | '-' :: body => r.short body
    | _ => r.plain argument

/-- The arguments that have been read, when there are no more. -/
def finish (r : Reading) : Except Error Arguments := do
  let r ← r.settle
  match r.input with
  | none => .error .missingInput
  | some input =>
    .ok {
      input := input
      output := r.output.getD "out.json"
      config := r.config
      logLevel := r.logLevel.getD "info"
      compact := r.compact }

end Reading

/-- Reads the arguments after the name of the program. -/
def parse (arguments : List String) : Except Error Arguments := do
  let r ← arguments.foldlM Reading.step {}
  r.finish

end Arguments

end DataDivision
