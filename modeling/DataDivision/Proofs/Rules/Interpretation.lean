import DataDivision.Rules.Basic

/-!
What interpreted rules say.

Rules are interpreted exactly if every part of their configuration is, and then they consist of
these parts (`interpret_eq_ok_iff`).
-/

namespace DataDivision

namespace Rules

theorem interpret_eq_ok_iff {engine : Pattern.Engine} {config : Config} {rules : Rules} :
    interpretWith engine config = .ok rules ↔
      strategyOf engine config = .ok rules.strategy ∧
      checkLevels config.fieldProcessing = .ok () ∧
      UsageTable.ofMapping config.fieldProcessing.usageMappings = .ok rules.usages ∧
      Naming.ofName? config.fieldProcessing.namingConvention = some rules.naming ∧
      0 ≤ config.layoutGeneration.startPosition ∧
      LayoutStrategy.ofName? config.layoutGeneration.strategy = some rules.layoutStrategy ∧
      rules.fallback = config.defaultType ∧
      rules.startPosition = config.layoutGeneration.startPosition.toNat ∧
      rules.config = config := by
  obtain ⟨strategy, fallback, usages, layoutStrategy, naming, startPosition, own⟩ := rules
  unfold interpretWith
  cases strategyOf engine config with
  | error e => simp [bind, Except.bind]
  | ok s =>
  cases hl : checkLevels config.fieldProcessing with
  | error e => simp [bind, Except.bind, hl]
  | ok _ =>
  cases hu : UsageTable.ofMapping config.fieldProcessing.usageMappings with
  | error e => simp [bind, Except.bind, hl, hu]
  | ok t =>
  cases hn : Naming.ofName? config.fieldProcessing.namingConvention with
  | none => simp [bind, Except.bind, hl, hu, hn]
  | some n =>
  by_cases hp : config.layoutGeneration.startPosition < 0
  · have hnot : ¬0 ≤ config.layoutGeneration.startPosition := by omega
    simp [bind, Except.bind, hl, hu, hn, hp, hnot, throw, throwThe, MonadExceptOf.throw]
  have hpos : 0 ≤ config.layoutGeneration.startPosition := by omega
  cases hg : LayoutStrategy.ofName? config.layoutGeneration.strategy with
  | none => simp [bind, Except.bind, hl, hu, hn, hp, hg]
  | some l =>
    simp only [bind, Except.bind, hl, hu, hn, hp, hg, hpos, pure, Except.pure, Except.ok.injEq,
      Option.some.injEq, Rules.mk.injEq, if_false, true_and]
    grind

end Rules

end DataDivision
