import DataDivision.Proofs.Rules.Interpretation

/-!
Rules by default.

A configuration that says how lines are told apart, and nothing about fields and layouts, has one
layout for each record type, names as they are written, and the usual usages.
-/

namespace DataDivision

/-- The engine for patterns of letters and digits, which stand for themselves. -/
def Pattern.Engine.plain : Engine where
  compile? pattern :=
    if pattern.toList.all Char.isAlphanum then
      some fun text =>
        if (List.range (text.length + 1)).any fun i => pattern.toList.isPrefixOf (text.drop i) then
          some { whole := pattern.toList }
        else none
    else none

namespace Rules

open Classification

/-- The usual usages, by the encodings they stand for. -/
def standardUsages : UsageTable where
  encodings := [("PACKED-DECIMAL", .packedDecimal), ("DISPLAY", .character),
    ("COMPUTATIONAL-5", .nativeBinary), ("COMPUTATIONAL-4", .binary),
    ("COMPUTATIONAL-3", .packedDecimal), ("COMPUTATIONAL-2", .double),
    ("COMPUTATIONAL-1", .float), ("COMPUTATIONAL", .binary), ("COMP-5", .nativeBinary),
    ("COMP-4", .binary), ("COMP-3", .packedDecimal), ("COMP-2", .double), ("COMP-1", .float),
    ("COMP", .binary), ("BINARY", .binary)]

theorem ofMapping_defaultUsages : UsageTable.ofMapping defaultUsages = .ok standardUsages := by
  have hok : ∀ r : Except Error UsageTable, r.toOption = some standardUsages →
      r = .ok standardUsages := by
    intro r h
    cases r with
    | error cause => cases h
    | ok table => exact congrArg Except.ok (Option.some.inj h)
  exact hok _ (by decide +kernel)

/-- The rules of a configuration with the given strategy and everything else by default. -/
def standard (config : Config) (strategy : Strategy) : Rules where
  strategy := strategy
  fallback := config.defaultType
  usages := standardUsages
  layoutStrategy := .multi
  naming := .asWritten
  startPosition := 1
  config := config

variable {engine : Pattern.Engine}

theorem interpret_eq_standard {config : Config} {strategy : Strategy}
    (hs : strategyOf engine config = .ok strategy) (hp : config.fieldProcessing = {})
    (hg : config.layoutGeneration = {}) :
    interpretWith engine config = .ok (standard config strategy) := by
  have hlevels : checkLevels {} = .ok () := rfl
  have hnaming : Naming.ofName? "original" = some .asWritten := rfl
  have hlayouts : LayoutStrategy.ofName? "multi_layout" = some .multi := rfl
  unfold interpretWith
  rw [hs, hp, hg]
  simp only [hlevels, ofMapping_defaultUsages, hnaming, hlayouts]
  rfl

theorem interpret_default : interpretWith engine {} = .ok (standard {} .undivided) :=
  interpret_eq_standard rfl rfl rfl

/-- The rules by default, but that fillers stay. -/
def keepingFillers : Rules :=
  standard { fieldProcessing := { includeFillers := true } } .undivided

theorem interpret_keepingFillers :
    interpretWith engine { fieldProcessing := { includeFillers := true } } = .ok keepingFillers :=
  interpret_eq_ok_iff.2
    ⟨rfl, rfl, ofMapping_defaultUsages, rfl, by decide, rfl, rfl, rfl, rfl⟩

end Rules

end DataDivision
