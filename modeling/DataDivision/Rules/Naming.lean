import DataDivision.Text.Case

/-!
Naming conventions for fields.
-/

namespace DataDivision.Rules

inductive Naming
  /-- Names stay as they are written. -/
  | asWritten
  | uppercase
  | lowercase
  | camelCase
  deriving DecidableEq, Repr

namespace Naming

def ofName? : String → Option Naming
  | "original" => some asWritten
  | "uppercase" => some uppercase
  | "lowercase" => some lowercase
  | "camelCase" => some camelCase
  | _ => none

/-- The nonempty parts of a name between hyphens and underscores. -/
def parts (name : String) : List String :=
  ((name.toList.splitOnP fun c => c == '-' || c == '_').filter (!·.isEmpty)).map String.ofList

/-- The text with its first character in upper case. -/
def capitalize (s : String) : String :=
  match s.toList with
  | [] => ""
  | c :: rest => String.ofList (Text.upperChar c ++ rest)

def apply (convention : Naming) (name : String) : String :=
  match convention with
  | asWritten => name
  | uppercase => Text.upper name
  | lowercase => Text.lower name
  | camelCase =>
    match parts name with
    | [] => ""
    | first :: rest => Text.lower first ++ String.join (rest.map fun p => capitalize (Text.lower p))

end Naming

end DataDivision.Rules
