import DataDivision.Proofs.Record.Closing

/-!
The steps of a walk.

A walk closes scopes, reports findings, adds condition names and declares data items.  `run_induct`
is the induction over these steps; the other statements say what each of them can do.
-/

namespace DataDivision

/-! ## Kinds -/

namespace Field

variable {f : Field}

theorem isCondition_of_isElementary (h : f.isElementary = true) : f.isCondition = false := by
  simp only [isElementary, beq_iff_eq] at h
  simp [isCondition, h]

theorem isCondition_of_isGroup (h : f.isGroup = true) : f.isCondition = false := by
  simp only [isGroup, beq_iff_eq] at h
  simp [isCondition, h]

theorem isElementary_of_isGroup (h : f.isGroup = true) : f.isElementary = false := by
  simp only [isGroup, beq_iff_eq] at h
  simp [isElementary, h]

end Field

/-! ## Declarations -/

/-- An entry that declares a group or an elementary item. -/
structure Declaration where
  descriptor : Entry.Descriptor
  entry : Entry
  deriving DecidableEq, Repr

/-- The entry as a declaration, unless it is a condition name, rejected, or no entry. -/
def Entry.declaration? (e : Entry) : Option Declaration :=
  match Entry.scan e.text e.span with
  | .ok (some d) => if d.kind = .condition then none else some ⟨d, e⟩
  | _ => none

theorem Entry.entry_of_declaration? {e : Entry} {x : Declaration} (h : e.declaration? = some x) :
    x.entry = e := by
  unfold Entry.declaration? at h
  split at h
  · split at h
    · cases h
    · cases h
      rfl
  · cases h

/-- A warning that is not about the size of the record. -/
def Diagnostic.IsPlain (d : Diagnostic) : Prop :=
  d.severity = .warning ∧ d.code ≠ some .recordTooLarge

theorem Entry.Rejection.isPlain_diagnostic (r : Entry.Rejection) (name : String) (span : Span) :
    (r.diagnostic name span).IsPlain := by
  cases r <;> simp [Diagnostic.IsPlain, diagnostic, Diagnostic.about, code]

theorem Entry.isPlain_of_scan {text : List Char} {span : Span} {d : Diagnostic}
    (h : Entry.scan text span = .error d) : d.IsPlain := by
  unfold Entry.scan at h
  cases hs : Head.split? text with
  | none => simp [hs] at h
  | some head =>
    simp only [hs] at h
    cases hd : head.describe span with
    | ok d => simp [hd] at h
    | error r =>
      simp only [hd, Except.error.injEq] at h
      exact h ▸ r.isPlain_diagnostic _ _

namespace Record

/-- The slot of a group, once the position behind its last repetition is known. -/
def Slot.closed (slot : Slot) (next : Nat) : Slot :=
  let first := slot.field.startPosition
  { slot with
    field := slot.field.setExtent first (if first < next then next - 1 else first)
    limit := next }

namespace Walk

/-! ## Positions -/

/-- The walk after the finding that the record is too large, which is made once. -/
def overflow (w : Walk) (name : String) (span : Span) : Walk :=
  if w.tooLarge then w else { w.report (tooLargeDiagnostic name span) with tooLarge := true }

theorem bound_of_le {w : Walk} {next : Nat} (name : String) (span : Span)
    (h : next ≤ Storage.maxRecordLength + 1) : w.bound (some next) name span = (next, w) := by
  have hf : (some next).filter (· ≤ Storage.maxRecordLength + 1) = some next := by
    simp [Option.filter, h]
  simp only [bound, hf]

theorem bound_of_lt {w : Walk} {next : Option Nat} (name : String) (span : Span)
    (h : ∀ n ∈ next, Storage.maxRecordLength + 1 < n) :
    w.bound next name span = (Storage.maxRecordLength + 1, w.overflow name span) := by
  have hf : next.filter (· ≤ Storage.maxRecordLength + 1) = none := by
    rw [Option.filter_eq_none_iff]
    intro n hn
    simpa using h n hn
  simp only [bound, hf, overflow]

/-- A position is kept, or it is beyond the largest record and the walk overflows. -/
theorem bound_cases (w : Walk) (next : Option Nat) (name : String) (span : Span) :
    (∃ n, next = some n ∧ n ≤ Storage.maxRecordLength + 1 ∧ w.bound next name span = (n, w)) ∨
      (∀ n ∈ next, Storage.maxRecordLength + 1 < n) ∧
        w.bound next name span = (Storage.maxRecordLength + 1, w.overflow name span) := by
  cases next with
  | none => exact .inr ⟨by simp, bound_of_lt name span (by simp)⟩
  | some n =>
    by_cases h : n ≤ Storage.maxRecordLength + 1
    · exact .inl ⟨n, rfl, h, bound_of_le name span h⟩
    · have hn : ∀ m ∈ some n, Storage.maxRecordLength + 1 < m := by
        rintro m ⟨⟩
        omega
      exact .inr ⟨hn, bound_of_lt name span hn⟩

@[simp] theorem tooLarge_overflow (w : Walk) (name : String) (span : Span) :
    (w.overflow name span).tooLarge = true := by
  unfold overflow
  split <;> simp_all

@[simp] theorem slots_overflow (w : Walk) (name : String) (span : Span) :
    (w.overflow name span).slots = w.slots := by
  unfold overflow
  split <;> rfl

@[simp] theorem groups_overflow (w : Walk) (name : String) (span : Span) :
    (w.overflow name span).groups = w.groups := by
  unfold overflow
  split <;> rfl

/-- The position behind a field is cut off behind the last byte of the largest record. -/
theorem fst_bound_le (w : Walk) (next : Option Nat) (name : String) (span : Span) :
    (w.bound next name span).1 ≤ Storage.maxRecordLength + 1 := by
  obtain ⟨n, -, hn, hb⟩ | ⟨-, hb⟩ := bound_cases w next name span
  · rw [hb]
    exact hn
  · exact Nat.le_of_eq (congrArg Prod.fst hb)

@[simp] theorem slots_bound (w : Walk) (next : Option Nat) (name : String) (span : Span) :
    (w.bound next name span).2.slots = w.slots := by
  obtain ⟨n, -, -, h⟩ | ⟨-, h⟩ := bound_cases w next name span <;> simp [h]

@[simp] theorem groups_bound (w : Walk) (next : Option Nat) (name : String) (span : Span) :
    (w.bound next name span).2.groups = w.groups := by
  obtain ⟨n, -, -, h⟩ | ⟨-, h⟩ := bound_cases w next name span <;> simp [h]

theorem getElem?_push {w : Walk} {field : Field} {span : Span} {i : Nat} :
    (w.push field span).slots[i]? =
      if i = w.slots.length then some ⟨field, w.cursor, span⟩ else w.slots[i]? := by
  simp only [push]
  split
  · rename_i h
    simp [h]
  · rename_i h
    by_cases hi : i < w.slots.length
    · rw [List.getElem?_append_left hi]
    · rw [List.getElem?_eq_none (by simp; omega), List.getElem?_eq_none (by omega)]

/-! ## Closing a group -/

/-- The walk with a group closed at the given position. -/
def finishGroup (w : Walk) (index : Nat) (slot : Slot) (next : Nat) (outer : List OpenGroup) :
    Walk :=
  { w with
    slots := w.slots.set index (slot.closed next)
    groups := outer
    cursor := max w.cursor next }

/-- The position behind the last repetition of a group, if it is a 64-bit number. -/
def behindGroup? (w : Walk) (slot : Slot) : Option Nat :=
  (Storage.mul? (w.cursor - slot.field.startPosition)
    (Storage.repeatCount slot.field.occurs)).bind (Storage.add? slot.field.startPosition)

theorem closeGroup_of_some {w : Walk} {group : OpenGroup} {slot : Slot} (outer : List OpenGroup)
    (h : w.slots[group.index]? = some slot) :
    w.closeGroup group outer =
      let bounded := w.bound (w.behindGroup? slot) slot.field.name group.span
      bounded.2.finishGroup group.index slot bounded.1 outer := by
  simp only [closeGroup, h]
  rfl

/-- The position behind a group, with numbers of any size. -/
def behindGroup (w : Walk) (slot : Slot) : Nat :=
  slot.field.startPosition +
    (w.cursor - slot.field.startPosition) * Storage.repeatCount slot.field.occurs

theorem behindGroup?_eq (w : Walk) (slot : Slot) :
    w.behindGroup? slot =
      if w.behindGroup slot ≤ Text.maxWord64 then some (w.behindGroup slot) else none := by
  unfold behindGroup? behindGroup Storage.mul?
  split
  · rfl
  · rw [if_neg (by omega)]
    rfl

theorem closeGroup_of_le {w : Walk} {group : OpenGroup} {slot : Slot} (outer : List OpenGroup)
    (hs : w.slots[group.index]? = some slot)
    (hle : w.behindGroup slot ≤ Storage.maxRecordLength + 1) :
    w.closeGroup group outer = w.finishGroup group.index slot (w.behindGroup slot) outer := by
  have hw : Storage.maxRecordLength + 1 ≤ Text.maxWord64 := by decide
  rw [closeGroup_of_some outer hs, behindGroup?_eq, if_pos (by omega), bound_of_le _ _ hle]

theorem tooLarge_closeGroup_of_lt {w : Walk} {group : OpenGroup} {slot : Slot}
    (outer : List OpenGroup) (hs : w.slots[group.index]? = some slot)
    (hlt : Storage.maxRecordLength + 1 < w.behindGroup slot) :
    (w.closeGroup group outer).tooLarge = true := by
  have hn : ∀ n ∈ w.behindGroup? slot, Storage.maxRecordLength + 1 < n := by
    rw [behindGroup?_eq]
    intro n hm
    split at hm
    · obtain rfl := Option.some.inj hm
      exact hlt
    · cases hm
  rw [closeGroup_of_some outer hs, bound_of_lt _ _ hn]
  exact tooLarge_overflow w _ _

/-- A walk that has overflowed stays so when a scope closes. -/
theorem tooLarge_close {w : Walk} (s : Scope) (h : w.tooLarge = true) :
    (w.close s).tooLarge = true := by
  cases s with
  | overlay overlay outer => exact h
  | group group outer =>
    cases hs : w.slots[group.index]? with
    | none => simpa [close, closeGroup, hs] using h
    | some slot =>
      rw [close, closeGroup_of_some outer hs]
      obtain ⟨n, -, -, hb⟩ | ⟨-, hb⟩ :=
        bound_cases w (w.behindGroup? slot) slot.field.name group.span
      · rw [hb]
        exact h
      · rw [hb]
        exact tooLarge_overflow w _ _

theorem tooLarge_closeScopes {w : Walk} (level : Nat) (h : w.tooLarge = true) :
    (w.closeScopes level).tooLarge = true :=
  closeScopes_induct (P := fun v => v.tooLarge = true) (fun _ s _ hv => tooLarge_close s hv) h

/-! ## Declaring -/

theorem kind_ofDescriptor (d : Entry.Descriptor) (line : Nat) :
    (Field.ofDescriptor d line).kind = d.kind := by
  unfold Field.ofDescriptor
  cases d.shape <;> rfl

theorem name_ofDescriptor (d : Entry.Descriptor) (line : Nat) :
    (Field.ofDescriptor d line).name = d.name := by
  unfold Field.ofDescriptor
  cases d.shape <;> rfl

theorem host_ofDescriptor (d : Entry.Descriptor) (line : Nat) :
    (Field.ofDescriptor d line).host = none := by
  unfold Field.ofDescriptor
  cases d.shape <;> rfl

theorem occurs_ofDescriptor (d : Entry.Descriptor) (line : Nat) :
    (Field.ofDescriptor d line).occurs = d.occurs := by
  unfold Field.ofDescriptor
  cases d.shape <;> rfl

/-- Opens the redefinition of a declaration, if it has one and the rules ask for it. -/
def redefine (rules : Rules) (d : Entry.Descriptor) (span : Span) (w : Walk) : Option Nat × Walk :=
  match d.redefines with
  | some name =>
    if rules.config.fieldProcessing.processRedefines then w.openOverlay rules d span name
    else (none, w)
  | none => (none, w)

/-- The usage of a declaration: its own or that of the group around it. -/
def usageOf (w : Walk) (d : Entry.Descriptor) : Option String :=
  d.usage.or (w.groups.head?.bind (·.usage))

/-- The field of a declaration before it has its bytes. -/
def fieldOf (w : Walk) (x : Declaration) (target : Option Nat) : Field :=
  { Field.ofDescriptor x.descriptor x.entry.line with
    parent := w.groups.head?.map (·.index)
    redefinesTarget := target }

/-- Adds a declaration when everything of its level and deeper is closed. -/
def declare (rules : Rules) (x : Declaration) (w : Walk) : Walk :=
  let opened := w.redefine rules x.descriptor x.entry.span
  let field := w.fieldOf x opened.1
  let usage := w.usageOf x.descriptor
  match x.descriptor.kind with
  | .group => opened.2.addGroup x.descriptor x.entry field usage
  | _ => opened.2.addElementary rules x.descriptor x.entry field usage

theorem addField_eq (rules : Rules) (x : Declaration) (w : Walk) :
    w.addField rules x.descriptor x.entry =
      (w.closeScopes x.descriptor.level).declare rules x := by
  rfl

theorem isPlain_undefinedTarget (name target : String) (span : Span) :
    (undefinedTarget name target span).IsPlain := by
  simp [Diagnostic.IsPlain, undefinedTarget, Diagnostic.about]

theorem isPlain_levelMismatch (d : Entry.Descriptor) (span : Span) (target : Slot) :
    (levelMismatch d span target).IsPlain := by
  simp [Diagnostic.IsPlain, levelMismatch]

theorem isPlain_orphanCondition (name : String) (span : Span) :
    (orphanCondition name span).IsPlain := by
  simp [Diagnostic.IsPlain, orphanCondition, Diagnostic.about]

theorem isPlain_unknownUsage (usage : Option String) (name : String) (span : Span) :
    (unknownUsage usage name span).IsPlain := by
  simp [Diagnostic.IsPlain, unknownUsage, Diagnostic.about]

/-- A usage is resolved without a trace or with a warning. -/
theorem resolveUsage_cases (rules : Rules) (usage : Option String) (name : String) (span : Span)
    (w : Walk) :
    (w.resolveUsage rules usage name span).1 = (rules.usages.resolve usage).getD .character ∧
      ((w.resolveUsage rules usage name span).2 = w ∨
        ∃ d : Diagnostic, d.IsPlain ∧ (w.resolveUsage rules usage name span).2 = w.report d) := by
  unfold resolveUsage
  cases rules.usages.resolve usage with
  | some encoding => exact ⟨rfl, .inl rfl⟩
  | none => exact ⟨rfl, .inr ⟨_, isPlain_unknownUsage usage name span, rfl⟩⟩

theorem target?_lt {w : Walk} {name : String} {i : Nat} (h : w.target? name = some i) :
    i < w.slots.length := by
  obtain ⟨⟨f, j⟩, hf, rfl⟩ := Option.map_eq_some_iff.1 h
  have hm := List.mem_reverse.1 (List.mem_of_find?_eq_some hf)
  simpa [fields] using List.snd_lt_of_mem_zipIdx hm

theorem baseOf_le (fields : List Field) (i : Nat) : baseOf fields i ≤ i :=
  mem_chain_le (chainEnd_mem_chain (targetOf fields) i)

/-- The walk in which the storage of the field `base` is laid out once more, as the redefinition
of the field `target`. -/
def enterOverlay (w : Walk) (level base : Nat) (target baseSlot : Slot) : Walk :=
  let resume := max (max (max ((w.shared.lookup base).getD 0) target.limit) baseSlot.limit) w.cursor
  { w with
    overlays := ⟨level, base, resume⟩ :: w.overlays
    cursor := baseSlot.field.startPosition }

/-- A redefinition with a target goes back to the base of the target. -/
theorem redefine_of_target {rules : Rules} {d : Entry.Descriptor} (span : Span) {w : Walk}
    {name : String} {i : Nat} {target baseSlot : Slot}
    (hr : rules.config.fieldProcessing.processRedefines = true) (hd : d.redefines = some name)
    (ht : w.target? name = some i) (hi : w.slots[i]? = some target)
    (hb : w.slots[baseOf w.fields i]? = some baseSlot) :
    ∃ v, (v = w ∨ ∃ e : Diagnostic, e.IsPlain ∧ v = w.report e) ∧
      w.redefine rules d span =
        (some i, v.enterOverlay d.level (baseOf w.fields i) target baseSlot) := by
  simp only [redefine, hd, hr, ↓reduceIte, openOverlay, ht, hi, hb]
  split
  · exact ⟨_, .inr ⟨_, isPlain_levelMismatch d span target, rfl⟩, rfl⟩
  · exact ⟨w, .inl rfl, rfl⟩

/-- What a redefinition does: nothing but a warning if it has no target, else the walk goes back
to the base of the target. -/
theorem redefine_cases (rules : Rules) (d : Entry.Descriptor) (span : Span) (w : Walk) :
    (∃ v, (v = w ∨ ∃ e : Diagnostic, e.IsPlain ∧ v = w.report e) ∧
      w.redefine rules d span = (none, v)) ∨
    ∃ v name i target baseSlot, (v = w ∨ ∃ e : Diagnostic, e.IsPlain ∧ v = w.report e) ∧
      d.redefines = some name ∧ w.target? name = some i ∧ w.slots[i]? = some target ∧
      w.slots[baseOf w.fields i]? = some baseSlot ∧
      w.redefine rules d span =
        (some i, v.enterOverlay d.level (baseOf w.fields i) target baseSlot) := by
  cases hd : d.redefines with
  | none => exact .inl ⟨w, .inl rfl, by simp only [redefine, hd]⟩
  | some name =>
    cases hr : rules.config.fieldProcessing.processRedefines with
    | false => exact .inl ⟨w, .inl rfl, by simp [redefine, hd, hr]⟩
    | true =>
      cases ht : w.target? name with
      | none =>
        refine .inl ⟨_, .inr ⟨_, isPlain_undefinedTarget d.name name span, rfl⟩, ?_⟩
        simp only [redefine, hd, hr, ↓reduceIte, openOverlay, ht]
      | some i =>
        have hi : i < w.slots.length := target?_lt ht
        have hb : baseOf w.fields i < w.slots.length := Nat.lt_of_le_of_lt (baseOf_le _ _) hi
        obtain ⟨v, hv, he⟩ := redefine_of_target span hr hd ht (List.getElem?_eq_getElem hi)
          (List.getElem?_eq_getElem hb)
        exact .inr ⟨v, name, i, _, _, hv, rfl, ht, List.getElem?_eq_getElem hi,
          List.getElem?_eq_getElem hb, he⟩

@[simp] theorem slots_redefine (rules : Rules) (d : Entry.Descriptor) (span : Span) (w : Walk) :
    (w.redefine rules d span).2.slots = w.slots := by
  obtain ⟨v, rfl | ⟨e, -, rfl⟩, hr⟩ |
    ⟨v, _, _, _, _, rfl | ⟨e, -, rfl⟩, -, -, -, -, hr⟩ := redefine_cases rules d span w <;>
  rw [hr] <;> rfl

@[simp] theorem groups_redefine (rules : Rules) (d : Entry.Descriptor) (span : Span) (w : Walk) :
    (w.redefine rules d span).2.groups = w.groups := by
  obtain ⟨v, rfl | ⟨e, -, rfl⟩, hr⟩ |
    ⟨v, _, _, _, _, rfl | ⟨e, -, rfl⟩, -, -, -, -, hr⟩ := redefine_cases rules d span w <;>
  rw [hr] <;> rfl

theorem tooLarge_redefine (rules : Rules) (d : Entry.Descriptor) (span : Span) (w : Walk) :
    (w.redefine rules d span).2.tooLarge = w.tooLarge := by
  obtain ⟨v, rfl | ⟨e, -, rfl⟩, hr⟩ |
    ⟨v, _, _, _, _, rfl | ⟨e, -, rfl⟩, -, -, -, -, hr⟩ := redefine_cases rules d span w <;>
  rw [hr] <;> rfl

@[simp] theorem slots_resolveUsage (rules : Rules) (usage : Option String) (name : String)
    (span : Span) (w : Walk) : (w.resolveUsage rules usage name span).2.slots = w.slots := by
  obtain ⟨-, h | ⟨d, -, h⟩⟩ := resolveUsage_cases rules usage name span w <;> simp only [h, report]

/-- The walk with an elementary item that ends before the given position. -/
def finishElementary (w : Walk) (field : Field) (span : Span) (next : Nat) : Walk :=
  { { w with cursor := max w.cursor next }.push (field.place w.cursor (next - w.cursor)) span with
    lastElementary := some w.slots.length }

theorem addElementary_eq (rules : Rules) (d : Entry.Descriptor) (entry : Entry) (field : Field)
    (usage : Option String) (w : Walk) :
    w.addElementary rules d entry field usage =
      let resolved := w.resolveUsage rules usage d.name entry.span
      let length := Storage.length .elementary d.shape resolved.1 d.occurs
      let bounded :=
        resolved.2.bound (Storage.add? resolved.2.cursor length) d.name entry.span
      bounded.2.finishElementary { field with usage := usage, encoding := resolved.1 } entry.span
        bounded.1 := by
  rfl

/-- A walk that has overflowed stays so when an item is declared. -/
theorem tooLarge_declare {w : Walk} (rules : Rules) (x : Declaration) (h : w.tooLarge = true) :
    (w.declare rules x).tooLarge = true := by
  rw [← tooLarge_redefine rules x.descriptor x.entry.span w] at h
  unfold declare
  dsimp only
  split
  · exact h
  · rw [addElementary_eq]
    dsimp only
    generalize w.redefine rules x.descriptor x.entry.span = opened at h
    have hr := (resolveUsage_cases rules (w.usageOf x.descriptor) x.descriptor.name x.entry.span
      opened.2).2
    generalize opened.2.resolveUsage rules (w.usageOf x.descriptor) x.descriptor.name
      x.entry.span = resolved at hr
    have ht : resolved.2.tooLarge = true := by
      obtain hr | ⟨e, -, hr⟩ := hr <;> rw [hr] <;> exact h
    obtain ⟨n, -, -, hb⟩ | ⟨-, hb⟩ := bound_cases resolved.2 (Storage.add? resolved.2.cursor
      (Storage.length .elementary x.descriptor.shape resolved.1 x.descriptor.occurs))
      x.descriptor.name x.entry.span
    · rw [hb]
      exact ht
    · rw [hb]
      exact tooLarge_overflow resolved.2 _ _

/-! ## Condition names -/

/-- The field of a condition name that describes the field in the given slot. -/
def conditionOf (d : Entry.Descriptor) (line i : Nat) (slot : Slot) : Field :=
  { (Field.ofDescriptor d line).setExtent slot.field.startPosition slot.field.endPosition with
    host := some i }

theorem isCondition_conditionOf {d : Entry.Descriptor} (hk : d.kind = .condition) (line i : Nat)
    (slot : Slot) : (conditionOf d line i slot).isCondition = true := by
  simp [conditionOf, Field.isCondition, Field.setExtent, kind_ofDescriptor, hk]

/-- A condition name is passed over, or reported, or added to the elementary item before it. -/
theorem addCondition_cases (rules : Rules) (d : Entry.Descriptor) (entry : Entry) (w : Walk) :
    w.addCondition rules d entry = w ∨
    (∃ e : Diagnostic, e.IsPlain ∧ w.addCondition rules d entry = w.report e) ∨
    ∃ i slot, w.lastElementary = some i ∧ w.slots[i]? = some slot ∧
      w.addCondition rules d entry = w.push (conditionOf d entry.line i slot) entry.span := by
  unfold addCondition
  split
  · exact .inl rfl
  · refine .inr ?_
    cases hl : w.lastElementary with
    | none => exact .inl ⟨_, isPlain_orphanCondition d.name entry.span, rfl⟩
    | some i =>
      cases hs : w.slots[i]? with
      | none =>
        refine .inl ⟨_, isPlain_orphanCondition d.name entry.span, ?_⟩
        simp [hs]
      | some slot =>
        refine .inr ⟨i, slot, rfl, hs, ?_⟩
        simp [hs, conditionOf]

/-! ## Rules -/

section

variable {rules rules' : Rules}

/-- Two sets of rules that agree in all that the layout of data items depends on. -/
structure SameLayout (rules rules' : Rules) : Prop where
  start_eq : start rules = start rules'
  usages_eq : rules.usages = rules'.usages
  processRedefines_eq : rules.config.fieldProcessing.processRedefines =
    rules'.config.fieldProcessing.processRedefines
  validateRedefines_eq : rules.config.validation.validateRedefines =
    rules'.config.validation.validateRedefines

theorem declare_congr (h : SameLayout rules rules') (x : Declaration) (w : Walk) :
    w.declare rules x = w.declare rules' x := by
  have hopen : ∀ name, w.openOverlay rules x.descriptor x.entry.span name =
      w.openOverlay rules' x.descriptor x.entry.span name := by
    intro name
    simp only [openOverlay, h.validateRedefines_eq]
  have hredefine : w.redefine rules x.descriptor x.entry.span =
      w.redefine rules' x.descriptor x.entry.span := by
    simp only [redefine, h.processRedefines_eq, hopen]
  have hresolve : ∀ (v : Walk) usage, v.resolveUsage rules usage x.descriptor.name x.entry.span =
      v.resolveUsage rules' usage x.descriptor.name x.entry.span := by
    intro v usage
    simp only [resolveUsage, h.usages_eq]
  simp only [declare, hredefine, addElementary, hresolve]

theorem addEntry_congr (h : SameLayout rules rules')
    (hc : rules.config.fieldProcessing.processConditions =
      rules'.config.fieldProcessing.processConditions) (w : Walk) (entry : Entry) :
    w.addEntry rules entry = w.addEntry rules' entry := by
  have hfield : ∀ d, w.addField rules d entry = w.addField rules' d entry := fun d =>
    declare_congr h ⟨d, entry⟩ _
  have hcondition : ∀ d, w.addCondition rules d entry = w.addCondition rules' d entry := by
    intro d
    simp only [addCondition, hc]
  simp only [addEntry, hfield, hcondition]

theorem run_congr (h : SameLayout rules rules')
    (hc : rules.config.fieldProcessing.processConditions =
      rules'.config.fieldProcessing.processConditions) (entries : List Entry) :
    run rules entries = run rules' entries := by
  have hadd : addEntry rules = addEntry rules' := funext fun w => funext (addEntry_congr h hc w)
  rw [run, run, h.start_eq, hadd]

end

/-! ## Runs -/

/-- An entry is passed over, reported, added as a condition name, or declared after what is of its
level or deeper has been closed. -/
theorem addEntry_cases (rules : Rules) (w : Walk) (entry : Entry) :
    entry.declaration? = none ∧
      (w.addEntry rules entry = w ∨
        (∃ d : Diagnostic, d.IsPlain ∧ w.addEntry rules entry = w.report d) ∨
        ∃ d i slot, d.kind = .condition ∧ w.lastElementary = some i ∧ w.slots[i]? = some slot ∧
          w.addEntry rules entry = w.push (conditionOf d entry.line i slot) entry.span) ∨
    ∃ x, entry.declaration? = some x ∧ x.descriptor.kind ≠ .condition ∧
      w.addEntry rules entry = (w.closeScopes x.descriptor.level).declare rules x := by
  unfold addEntry Entry.declaration?
  cases hs : Entry.scan entry.text entry.span with
  | error d => exact .inl ⟨rfl, .inr (.inl ⟨d, Entry.isPlain_of_scan hs, rfl⟩)⟩
  | ok scanned =>
    cases scanned with
    | none => exact .inl ⟨rfl, .inl rfl⟩
    | some d =>
      by_cases hk : d.kind = .condition
      · refine .inl ⟨by simp [hk], ?_⟩
        simp only [hk]
        obtain h | h | ⟨i, slot, hl, hi, h⟩ := addCondition_cases rules d entry w
        · exact .inl h
        · exact .inr (.inl h)
        · exact .inr (.inr ⟨d, i, slot, hk, hl, hi, h⟩)
      · refine .inr ⟨⟨d, entry⟩, by simp [hk], hk, ?_⟩
        rw [← addField_eq]
        cases hd : d.kind with
        | condition => exact absurd hd hk
        | group => simp only [hd]
        | elementary => simp only [hd]

/-- What holds at the start and is kept by every step holds after a whole walk. -/
theorem run_induct {P : Walk → Prop} {rules : Rules} (hstart : P (start rules))
    (hclose : ∀ w level s, nextScope? level w.groups w.overlays = some s → P w → P (w.close s))
    (hreport : ∀ w (d : Diagnostic), d.IsPlain → P w → P (w.report d))
    (hcondition : ∀ w d line span i slot, d.kind = .condition → w.lastElementary = some i →
      w.slots[i]? = some slot → P w → P (w.push (conditionOf d line i slot) span))
    (hdeclare : ∀ w x, x.descriptor.kind ≠ .condition →
      nextScope? x.descriptor.level w.groups w.overlays = none → P w → P (w.declare rules x))
    (entries : List Entry) : P (run rules entries) := by
  have hlevel : ∀ w level, P w → P (w.closeScopes level) := fun w level h =>
    closeScopes_induct (fun v s hs hv => hclose v level s hs hv) h
  have hadd : ∀ w entry, P w → P (w.addEntry rules entry) := by
    intro w entry h
    obtain ⟨-, he | ⟨d, hd, he⟩ | ⟨d, i, slot, hk, hl, hi, he⟩⟩ | ⟨x, -, hk, he⟩ :=
      addEntry_cases rules w entry
    · rwa [he]
    · exact he ▸ hreport w d hd h
    · exact he ▸ hcondition w d _ _ i slot hk hl hi h
    · rw [he]
      exact hdeclare _ x hk (nextScope?_closeScopes _ w) (hlevel w _ h)
  have hfold : ∀ w, P w → P (entries.foldl (addEntry rules) w) := by
    induction entries with
    | nil => exact fun w h => h
    | cons entry rest ih => exact fun w h => ih _ (hadd w entry h)
  exact hlevel _ 0 (hfold _ hstart)

end Walk

end Record

end DataDivision
