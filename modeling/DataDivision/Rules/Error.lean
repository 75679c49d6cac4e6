/-!
Problems with rules.
-/

namespace DataDivision.Rules

/-- Why a configuration cannot be used. -/
inductive Error
  | unsupportedStrategy (name : String)
  | missingSection (ruleType : String)
  | missingParameter (strategy parameter : String)
  /-- A number that must be positive is not. -/
  | invalidParameter (parameter : String) (value : Int)
  | noRecordLevels
  | conflictingLevels (level : Nat)
  | unknownEncoding (usage encoding : String)
  | unknownNamingConvention (name : String)
  | negativeStartPosition (position : Int)
  | unsupportedLayoutStrategy (name : String)
  | invalidPattern
  deriving DecidableEq, Repr

def Error.message : Error → String
  | unsupportedStrategy name => s!"unsupported rule type `{name}`"
  | missingSection ruleType => s!"{ruleType} rules require a [record_type_field] section"
  | missingParameter strategy parameter => s!"{strategy} rules require `{parameter}`"
  | invalidParameter parameter value =>
    s!"invalid `{parameter}`: must be at least 1, got {value}"
  | noRecordLevels => "at least one record level must be specified"
  | conflictingLevels level =>
    s!"level {level} is designated both as a condition level and as a data level"
  | unknownEncoding usage encoding => s!"usage `{usage}` maps to unknown encoding `{encoding}`"
  | unknownNamingConvention name => s!"unknown naming convention `{name}`"
  | negativeStartPosition position => s!"start position cannot be negative, got {position}"
  | unsupportedLayoutStrategy name => s!"invalid layout strategy `{name}`"
  | invalidPattern => "invalid pattern"

end DataDivision.Rules
