import DataDivision.Encoding
import DataDivision.Rules.Document
import DataDivision.Rules.Error

/-!
Usages and their encodings.
-/

namespace DataDivision.Rules

/-- The encodings of usages, by the usage in upper case.  Of several for one usage the first
counts. -/
structure UsageTable where
  encodings : List (String × Encoding)
  deriving DecidableEq, Repr

namespace UsageTable

/-- The table of a mapping.  The mapping is read in the order of its keys, and of keys that differ
in case only the last counts. -/
def ofMapping (mapping : Mapping) : Except Error UsageTable := do
  let pairs ← mapping.mapM fun (usage, name) =>
    match Encoding.ofName? name with
    | some encoding => .ok (Text.asciiUpper usage, encoding)
    | none => .error (.unknownEncoding usage name)
  return ⟨pairs.reverse⟩

/-- The encoding of a usage.  Items without a usage are stored as characters. -/
def resolve (table : UsageTable) : Option String → Option Encoding
  | none => some .character
  | some usage => table.encodings.lookup (Text.asciiUpper usage)

end UsageTable

end DataDivision.Rules
