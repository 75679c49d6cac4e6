import DataDivision.Rules.Section

/-!
Rule configurations.

Every setting has a default, so the empty document is a configuration.  Names of strategies and
conventions are plain texts here; they are checked when the rules are interpreted.
-/

namespace DataDivision.Rules

/-- The label of lines that match no rule, unless the rules say otherwise. -/
def defaultRecordType : String := "DATA"

/-- One test of the multi-field strategy. -/
structure FieldTest where
  name : Option String := none
  start : Option Int := none
  length : Option Int := none
  expectedValue : Option String := none
  recordType : Option String := none
  deriving DecidableEq, Repr

/-- The parameters by which lines are told apart. -/
structure RecordTypeField where
  /-- Column of the record type code, from 1. -/
  start : Option Int := none
  /-- Width of the record type code in characters. -/
  length : Option Int := none
  values : Mapping := []
  defaultType : String := defaultRecordType
  trimValues : Bool := true
  ignoreCase : Bool := false
  caseSensitive : Bool := false
  validCharacters : Option (List String) := none
  conditionalLogic : Option String := none
  conditionalExpression : Option String := none
  conditionalMappings : Mapping := []
  pattern : Option String := none
  patternMappings : Mapping := []
  multiFieldRules : List FieldTest := []
  deriving DecidableEq, Repr

/-- The usages that are known without being configured. -/
def defaultUsages : Mapping :=
  Mapping.ofPairs [("COMP", "binary"), ("COMP-1", "float"), ("COMP-2", "double"),
    ("COMP-3", "packed_decimal"), ("COMP-4", "binary"), ("COMP-5", "native_binary"),
    ("COMPUTATIONAL", "binary"), ("COMPUTATIONAL-1", "float"), ("COMPUTATIONAL-2", "double"),
    ("COMPUTATIONAL-3", "packed_decimal"), ("COMPUTATIONAL-4", "binary"),
    ("COMPUTATIONAL-5", "native_binary"), ("DISPLAY", "character"),
    ("PACKED-DECIMAL", "packed_decimal"), ("BINARY", "binary")]

/-- How entries become fields. -/
structure FieldProcessing where
  recordLevels : List Nat := [1]
  groupLevels : List Nat := [5, 10, 15, 20, 25]
  elementaryLevels : List Nat := [30, 35, 40, 45, 49]
  conditionLevels : List Nat := [88]
  includeFillers : Bool := false
  processConditions : Bool := true
  processRedefines : Bool := true
  namingConvention : String := "original"
  usageMappings : Mapping := defaultUsages
  fieldNameMappings : Mapping := []
  excludeFieldNames : List String := []
  deriving DecidableEq, Repr

/-- How fields become layouts. -/
structure LayoutGeneration where
  strategy : String := "multi_layout"
  /-- Layout name with places for the record type and the name at level 01. -/
  namingConvention : String := "\x7brecord_type\x7d_\x7b01_level_name\x7d"
  startPosition : Int := 1
  includeRecordType : Bool := true
  allowOverlaps : Bool := false
  deriving DecidableEq, Repr

/-- Which properties of layouts are checked. -/
structure Validation where
  /-- Overlaps and redefinitions without a target are errors. -/
  strictMode : Bool := false
  validateFieldOverlaps : Bool := true
  validateRedefines : Bool := true
  /-- All record types must have one length. -/
  uniformRecordLength : Bool := false
  deriving DecidableEq, Repr

/-- A whole set of rules as it is written down. -/
structure Config where
  ruleType : String := "no-record-type"
  recordTypeField : Option RecordTypeField := none
  fieldProcessing : FieldProcessing := {}
  layoutGeneration : LayoutGeneration := {}
  validation : Validation := {}
  deriving DecidableEq, Repr

/-- The label of lines that match no rule. -/
def Config.defaultType (c : Config) : String :=
  (c.recordTypeField.map (·.defaultType)).getD defaultRecordType

/-! ## Reading documents -/

open Document

def FieldTest.reader : SectionReader FieldTest := do
  return {
    name := ← setting "name" (asOptional? asText?) none
    start := ← setting "start" (asOptional? asInt64?) none
    length := ← setting "length" (asOptional? asInt64?) none
    expectedValue := ← setting "expected_value" (asOptional? asText?) none
    recordType := ← setting "record_type" (asOptional? asText?) none }

def RecordTypeField.reader (surplus : Surplus) : SectionReader RecordTypeField := do
  return {
    start := ← setting "start" (asOptional? asInt64?) none
    length := ← setting "length" (asOptional? asInt64?) none
    values := ← setting "values" asMapping? []
    defaultType := ← setting "default_type" asText? defaultRecordType
    trimValues := ← setting "trim_values" asBool? true
    ignoreCase := ← setting "ignore_case" asBool? false
    caseSensitive := ← setting "case_sensitive" asBool? false
    validCharacters := ← setting "valid_characters" (asOptional? (asList? asText?)) none
    conditionalLogic := ← setting "conditional_logic" (asOptional? asText?) none
    conditionalExpression := ← setting "conditional_expression" (asOptional? asText?) none
    conditionalMappings := ← setting "conditional_mappings" asMapping? []
    pattern := ← setting "pattern" (asOptional? asText?) none
    patternMappings := ← setting "pattern_mappings" asMapping? []
    multiFieldRules := ←
      setting "multi_field_rules" (asList? (asSection? surplus FieldTest.reader)) [] }

def FieldProcessing.reader : SectionReader FieldProcessing := do
  let base : FieldProcessing := {}
  return {
    recordLevels := ← setting "record_levels" (asList? asWord32?) base.recordLevels
    groupLevels := ← setting "group_levels" (asList? asWord32?) base.groupLevels
    elementaryLevels := ← setting "elementary_levels" (asList? asWord32?) base.elementaryLevels
    conditionLevels := ← setting "condition_levels" (asList? asWord32?) base.conditionLevels
    includeFillers := ← setting "include_fillers" asBool? base.includeFillers
    processConditions := ← setting "process_conditions" asBool? base.processConditions
    processRedefines := ← setting "process_redefines" asBool? base.processRedefines
    namingConvention := ← setting "naming_convention" asText? base.namingConvention
    usageMappings := ← setting "usage_mappings" asMapping? base.usageMappings
    fieldNameMappings := ← setting "field_name_mappings" asMapping? base.fieldNameMappings
    excludeFieldNames := ← setting "exclude_field_names" (asList? asText?)
      base.excludeFieldNames }

def LayoutGeneration.reader : SectionReader LayoutGeneration := do
  let base : LayoutGeneration := {}
  return {
    strategy := ← setting "strategy" asText? base.strategy
    namingConvention := ← setting "naming_convention" asText? base.namingConvention
    startPosition := ← setting "start_position" asInt64? base.startPosition
    includeRecordType := ← setting "include_record_type" asBool? base.includeRecordType
    allowOverlaps := ← setting "allow_overlaps" asBool? base.allowOverlaps }

def Validation.reader : SectionReader Validation := do
  let base : Validation := {}
  return {
    strictMode := ← setting "strict_mode" asBool? base.strictMode
    validateFieldOverlaps := ← setting "validate_field_overlaps" asBool?
      base.validateFieldOverlaps
    validateRedefines := ← setting "validate_redefines" asBool? base.validateRedefines
    uniformRecordLength := ← setting "uniform_record_length" asBool? base.uniformRecordLength }

def Config.reader (surplus : Surplus) : SectionReader Config := do
  return {
    ruleType := ← setting "rule_type" asText? "no-record-type"
    recordTypeField := ← setting "record_type_field"
      (asOptional? (asSection? surplus (RecordTypeField.reader surplus))) none
    fieldProcessing := ←
      setting "field_processing" (asSection? surplus FieldProcessing.reader) {}
    layoutGeneration := ←
      setting "layout_generation" (asSection? surplus LayoutGeneration.reader) {}
    validation := ← setting "validation" (asSection? surplus Validation.reader) {} }

/-- Reads a configuration, which is a table.  Missing keys have their defaults, unknown keys are
ignored, and a value of the wrong kind makes the whole document unreadable. -/
def Config.ofDocument? (surplus : Surplus) (d : Document) : Option Config := do
  let (config, _) ← reader surplus (.named (← d.asTable?))
  return config

end DataDivision.Rules
