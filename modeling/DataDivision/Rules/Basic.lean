import DataDivision.Classification.Strategy
import DataDivision.Rules.Conditional
import DataDivision.Rules.Config
import DataDivision.Rules.Naming
import DataDivision.Rules.Usage

/-!
Interpreted rules.

`interpretWith` checks a configuration and turns its names into strategies, conventions and
encodings.  It reports the first problem, in the order of the checks.  Patterns are left to an
engine.
-/

namespace DataDivision

namespace Rules

/-- How classified lines are grouped into layouts. -/
inductive LayoutStrategy
  /-- All lines make one layout. -/
  | single
  /-- One layout for each record type. -/
  | multi
  /-- One layout for each record type, too. -/
  | custom
  deriving DecidableEq, Repr

namespace LayoutStrategy

def name : LayoutStrategy → String
  | single => "single_layout"
  | multi => "multi_layout"
  | custom => "custom"

def ofName? : String → Option LayoutStrategy
  | "single_layout" => some single
  | "multi_layout" => some multi
  | "custom" => some custom
  | _ => none

theorem ofName?_name (s : LayoutStrategy) : ofName? s.name = some s := by
  cases s <;> rfl

end LayoutStrategy

end Rules

/-- Rules that are ready for use. -/
structure Rules where
  strategy : Classification.Strategy
  /-- The record type of lines that match no rule. -/
  fallback : String
  usages : Rules.UsageTable
  layoutStrategy : Rules.LayoutStrategy
  naming : Rules.Naming
  /-- The position of a record's first byte. -/
  startPosition : Nat
  /-- The configuration that was interpreted. -/
  config : Rules.Config

namespace Rules

open Classification

/-- The bytes set aside for the record type code at the start of a record. -/
def codeWidth (rules : Rules) : Nat :=
  if rules.config.layoutGeneration.includeRecordType then rules.strategy.width else 0

/-! ## Strategies -/

def positive (parameter : String) (value : Int) : Except Error Nat :=
  if 1 ≤ value then .ok value.toNat else .error (.invalidParameter parameter value)

def required (strategy parameter : String) : Option Int → Except Error Nat
  | none => .error (.missingParameter strategy parameter)
  | some value => positive parameter value

def positionRule (field : RecordTypeField) : Except Error PositionRule := do
  let start ← required "position-based" "start" field.start
  let length ← required "position-based" "length" field.length
  if field.values.isEmpty then .error (.missingParameter "position-based" "values")
  else .ok ⟨start, length, field.values, field.trimValues, field.ignoreCase⟩

def characterRule (field : RecordTypeField) : Except Error CharacterRule := do
  let start ← required "character-based" "start" field.start
  if field.values.isEmpty && field.validCharacters.isNone then
    .error (.missingParameter "character-based" "values or valid_characters")
  else .ok ⟨start, field.values, field.validCharacters, field.caseSensitive⟩

/-- The label of a branch: its own, or that of its character in the mappings, or the character. -/
def branchLabel (mappings : Mapping) (c : Char) (label : Option String) : String :=
  let character := String.ofList [c]
  (label.or (mappings.get? character)).getD character

/-- An expression that cannot be read has no branches, so that every line falls back. -/
def conditionalRule (field : RecordTypeField) : Except Error ConditionalRule := do
  let start ← match field.start with
    | none => .ok 1
    | some start => positive "start" start
  match field.conditionalExpression.or field.conditionalLogic with
  | none =>
    .error (.missingParameter "conditional-based" "conditional_expression or conditional_logic")
  | some expression =>
    let parsed := (Conditional.parse? expression).getD ⟨[], none⟩
    let branches := parsed.branches.map fun (c, label) =>
      (c, branchLabel field.conditionalMappings c label)
    .ok ⟨start, branches, parsed.otherwise, field.caseSensitive⟩

def patternRule (engine : Pattern.Engine) (field : RecordTypeField) : Except Error PatternRule :=
  match field.pattern.filter (!·.isEmpty) with
  | none => .error (.missingParameter "pattern-based" "pattern")
  | some pattern =>
    match engine.compile? pattern with
    | none => .error .invalidPattern
    | some captures? =>
      if field.patternMappings.isEmpty then
        .error (.missingParameter "pattern-based" "pattern_mappings")
      else .ok ⟨captures?, field.patternMappings⟩

/-- A test of the multi-field strategy; `index` is its place in the list. -/
def fieldMatch (index : Nat) (test : FieldTest) : Except Error FieldMatch := do
  let parameter (name : String) : String := s!"multi_field_rules[{index}]." ++ name
  let start ← required "multi-field" (parameter "start") test.start
  let length ← required "multi-field" (parameter "length") test.length
  match test.expectedValue, test.recordType with
  | none, _ => .error (.missingParameter "multi-field" (parameter "expected_value"))
  | some _, none => .error (.missingParameter "multi-field" (parameter "record_type"))
  | some expected, some recordType => .ok ⟨start, length, expected, recordType⟩

/-- The tests of the multi-field strategy from the place `index` on. -/
def fieldMatches (index : Nat) : List FieldTest → Except Error (List FieldMatch)
  | [] => .ok []
  | test :: rest => do
    let first ← fieldMatch index test
    let more ← fieldMatches (index + 1) rest
    return first :: more

def multiFieldRule (field : RecordTypeField) : Except Error MultiFieldRule := do
  if field.multiFieldRules.isEmpty then
    .error (.missingParameter "multi-field" "multi_field_rules")
  else
    let tests ← fieldMatches 0 field.multiFieldRules
    return ⟨tests, field.trimValues⟩

/-- The strategy that a configuration names, in any case. -/
def strategyOf (engine : Pattern.Engine) (config : Config) : Except Error Strategy :=
  let ruleType := Text.asciiLower config.ruleType
  let withField (build : RecordTypeField → Except Error Strategy) : Except Error Strategy :=
    match config.recordTypeField with
    | none => .error (.missingSection ruleType)
    | some field => build field
  match ruleType with
  | "position-based" => withField fun field => (positionRule field).map .position
  | "character-based" => withField fun field => (characterRule field).map .character
  | "conditional-based" => withField fun field => (conditionalRule field).map .conditional
  | "pattern-based" => withField fun field => (patternRule engine field).map .pattern
  | "multi-field" => withField fun field => (multiFieldRule field).map .multiField
  | "no-record-type" => .ok .undivided
  | _ => .error (.unsupportedStrategy config.ruleType)

/-! ## Rules -/

/-- Refuses a level that is both a data level and a condition level. -/
def checkLevels (processing : FieldProcessing) : Except Error Unit :=
  if processing.recordLevels.isEmpty then .error .noRecordLevels
  else
    let levels := processing.recordLevels ++ processing.groupLevels ++ processing.elementaryLevels
    match levels.find? processing.conditionLevels.contains with
    | some level => .error (.conflictingLevels level)
    | none => .ok ()

def interpretWith (engine : Pattern.Engine) (config : Config) : Except Error Rules := do
  let strategy ← strategyOf engine config
  let processing := config.fieldProcessing
  checkLevels processing
  let usages ← UsageTable.ofMapping processing.usageMappings
  let naming ← match Naming.ofName? processing.namingConvention with
    | some naming => .ok naming
    | none => .error (.unknownNamingConvention processing.namingConvention)
  let generation := config.layoutGeneration
  if generation.startPosition < 0 then
    throw (.negativeStartPosition generation.startPosition)
  let layoutStrategy ← match LayoutStrategy.ofName? generation.strategy with
    | some strategy => .ok strategy
    | none => .error (.unsupportedLayoutStrategy generation.strategy)
  return {
    strategy := strategy
    fallback := config.defaultType
    usages := usages
    layoutStrategy := layoutStrategy
    naming := naming
    startPosition := generation.startPosition.toNat
    config := config }

end Rules

end DataDivision
