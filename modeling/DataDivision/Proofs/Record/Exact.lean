import DataDivision.Proofs.Record.Extent
import DataDivision.Proofs.Record.Findings

/-!
Exact positions.

The exact walk calculates with all natural numbers: nothing is cut off, no sum or product stops at a
largest number, and a difference exists only if it is a natural number.  It never gets stuck, and a
walk agrees with it until a position lies beyond the largest record (`exists_follows_run`).  A
position that does is reported (`reports_tooLarge_iff`), and a record without that report is the
exact one (`ofEntries_eq`).
-/

namespace DataDivision

namespace Storage

/-! ## Exact lengths -/

/-- The difference, if it is a natural number. -/
def sub? (a b : Nat) : Option Nat := if b ≤ a then some (a - b) else none

/-- The bytes of `count` positions in an encoding, for any count. -/
def exactEncodedLength (count : Nat) (encoding : Encoding) (signed : Bool) : Nat :=
  match encoding with
  | .character => count
  | .binary | .nativeBinary =>
    if count ≤ 4 then 2 else if count ≤ 9 then 4 else if count ≤ 18 then 8 else 16
  | .float => 4
  | .double => 8
  | .packedDecimal => (count + if signed then 2 else 1) / 2

/-- The bytes of an elementary item with the given picture, however many they are. -/
def exactLength (picture : Option Picture) (encoding : Encoding) (occurs : Option Nat) : Nat :=
  let positions := (picture.map (·.displayLength)).getD 0
  let signed := (picture.map (·.signed)).getD false
  exactEncodedLength (positions * repeatCount occurs) encoding signed

/-- Stopping at the largest 64-bit number shows only in lengths that fit no record. -/
theorem encodedLength_eq_or_lt (count : Nat) (encoding : Encoding) (signed : Bool) :
    encodedLength (min count Text.maxWord64) encoding signed =
        exactEncodedLength count encoding signed ∨
      maxRecordLength + 1 < encodedLength (min count Text.maxWord64) encoding signed ∧
        maxRecordLength + 1 < exactEncodedLength count encoding signed := by
  cases encoding with
  | float => exact .inl rfl
  | double => exact .inl rfl
  | character =>
    simp only [encodedLength, exactEncodedLength, Text.maxWord64, maxRecordLength]
    omega
  | binary =>
    simp only [encodedLength, exactEncodedLength, Text.maxWord64]
    grind
  | nativeBinary =>
    simp only [encodedLength, exactEncodedLength, Text.maxWord64]
    grind
  | packedDecimal =>
    simp only [encodedLength, exactEncodedLength, addSat, Text.maxWord64, maxRecordLength]
    cases signed <;> simp only [Bool.false_eq_true, ↓reduceIte] <;> omega

theorem length_eq_or_lt (picture : Option Picture) (encoding : Encoding) (occurs : Option Nat) :
    length .elementary picture encoding occurs = exactLength picture encoding occurs ∨
      maxRecordLength + 1 < length .elementary picture encoding occurs ∧
        maxRecordLength + 1 < exactLength picture encoding occurs :=
  encodedLength_eq_or_lt _ encoding _

/-- The position behind an item is exact unless it lies beyond the largest record. -/
theorem add?_length (cursor : Nat) (picture : Option Picture) (encoding : Encoding)
    (occurs : Option Nat) :
    let next := cursor + exactLength picture encoding occurs
    (next ≤ maxRecordLength + 1 →
      add? cursor (length .elementary picture encoding occurs) = some next) ∧
    (maxRecordLength + 1 < next →
      ∀ n ∈ add? cursor (length .elementary picture encoding occurs), maxRecordLength + 1 < n) := by
  have h := length_eq_or_lt picture encoding occurs
  have hw : maxRecordLength + 1 ≤ Text.maxWord64 := by decide
  unfold add?
  constructor
  · intro hn
    obtain h | ⟨-, h⟩ := h
    · rw [h, if_pos (by omega)]
    · omega
  · intro hn n hm
    split at hm
    · obtain rfl := Option.some.inj hm
      obtain h | ⟨h, -⟩ := h <;> omega
    · cases hm

end Storage

namespace Record

/-! ## The exact walk -/

namespace Exact

open Walk

/-- Closes a group at the position behind its last repetition. -/
def closeGroup (w : Walk) (group : OpenGroup) (outer : List OpenGroup) : Option Walk :=
  match w.slots[group.index]? with
  | none => some { w with groups := outer }
  | some slot => do
    let first := slot.field.startPosition
    let inside ← Storage.sub? w.cursor first
    let next := first + inside * Storage.repeatCount slot.field.occurs
    some (w.finishGroup group.index slot next outer)

def close (w : Walk) : Scope → Option Walk
  | .group group outer => closeGroup w group outer
  | .overlay overlay outer => some (w.closeOverlay overlay outer)

theorem depth_close {level : Nat} {w w' : Walk} {s : Scope}
    (hs : nextScope? level w.groups w.overlays = some s) (h : close w s = some w') :
    w'.depth < w.depth := by
  cases s with
  | group group outer =>
    have hg := (nextScope?_eq_group_iff.1 hs).1
    simp only [close, closeGroup] at h
    split at h
    · cases h
      simp [depth, hg]
    · obtain ⟨inside, -, h⟩ := Option.bind_eq_some_iff.1 h
      cases h
      simp [depth, finishGroup, hg]
  | overlay overlay outer =>
    have ho := (nextScope?_eq_overlay_iff.1 hs).1
    cases h
    simp [depth, closeOverlay, ho]

def closeScopes (level : Nat) (w : Walk) : Option Walk :=
  match _hs : nextScope? level w.groups w.overlays with
  | none => some w
  | some s =>
    match _h : close w s with
    | none => none
    | some w' => closeScopes level w'
termination_by w.depth
decreasing_by exact depth_close _hs _h

/-- Adds an elementary item at the cursor, which moves on by the length of the item. -/
def addElementary (rules : Rules) (d : Entry.Descriptor) (entry : Entry) (field : Field)
    (usage : Option String) (w : Walk) : Walk :=
  let (encoding, w) := w.resolveUsage rules usage d.name entry.span
  let length := Storage.exactLength d.shape encoding d.occurs
  let placed := { field with usage := usage, encoding := encoding }.place w.cursor length
  { { w with cursor := w.cursor + length }.push placed entry.span with
    lastElementary := some w.slots.length }

def declare (rules : Rules) (x : Declaration) (w : Walk) : Walk :=
  let opened := w.redefine rules x.descriptor x.entry.span
  let field := w.fieldOf x opened.1
  let usage := w.usageOf x.descriptor
  match x.descriptor.kind with
  | .group => opened.2.addGroup x.descriptor x.entry field usage
  | _ => addElementary rules x.descriptor x.entry field usage opened.2

def addEntry (rules : Rules) (w : Walk) (entry : Entry) : Option Walk :=
  match Entry.scan entry.text entry.span with
  | .error d => some (w.report d)
  | .ok none => some w
  | .ok (some d) =>
    match d.kind with
    | .condition => some (w.addCondition rules d entry)
    | _ => (closeScopes d.level w).map (declare rules ⟨d, entry⟩)

/-- The whole exact walk, with everything closed. -/
def run (rules : Rules) (entries : List Entry) : Option Walk := do
  let w ← entries.foldlM (addEntry rules) (Walk.start rules)
  closeScopes 0 w

end Exact

/-! ## Positions beyond the largest record -/

namespace Walk

/-- The slot at an index has its final limit: it belongs to no open group and no condition name. -/
def IsSettled (w : Walk) (i : Nat) (slot : Slot) : Prop :=
  w.slots[i]? = some slot ∧ slot.field.isCondition = false ∧ ∀ group ∈ w.groups, group.index ≠ i

/-- The position behind some field or closed group lies beyond the largest record. -/
def Exceeds (w : Walk) : Prop :=
  ∃ i slot, w.IsSettled i slot ∧ Storage.maxRecordLength + 1 < slot.limit

theorem exceeds_of_eq {w v : Walk} (hs : v.slots = w.slots) (hg : v.groups = w.groups) :
    v.Exceeds ↔ w.Exceeds := by
  simp only [Exceeds, IsSettled, hs, hg]

theorem exceeds_finishGroup {w : Walk} (h : w.Nested) {group : OpenGroup}
    {outer : List OpenGroup} {slot : Slot} (next : Nat) (hg : w.groups = group :: outer)
    (hs : w.slots[group.index]? = some slot) (hk : slot.field.isGroup = true) :
    (w.finishGroup group.index slot next outer).Exceeds ↔
      w.Exceeds ∨ Storage.maxRecordLength + 1 < next := by
  have hlt : group.index < w.slots.length := (List.getElem?_eq_some_iff.1 hs).1
  have hindices := h.group_indices
  rw [hg] at hindices
  constructor
  · rintro ⟨i, t, ⟨hi, hc, ho⟩, hl⟩
    by_cases he : group.index = i
    · subst he
      simp only [finishGroup, List.getElem?_set_self hlt, Option.some.injEq] at hi
      subst hi
      exact .inr hl
    · refine .inl ⟨i, t, ⟨?_, hc, ?_⟩, hl⟩
      · simpa [finishGroup, List.getElem?_set_ne he] using hi
      · rw [hg]
        rintro g (_ | ⟨_, hm⟩)
        · exact he
        · exact ho g hm
  · rintro (⟨i, t, ⟨hi, hc, ho⟩, hl⟩ | hl)
    · have he : group.index ≠ i := ho group (by simp [hg])
      refine ⟨i, t, ⟨?_, hc, fun g hm => ho g (by rw [hg]; exact List.mem_cons_of_mem _ hm)⟩, hl⟩
      simpa [finishGroup, List.getElem?_set_ne he] using hi
    · refine ⟨group.index, slot.closed next, ⟨?_, ?_, ?_⟩, hl⟩
      · simp [finishGroup, List.getElem?_set_self hlt]
      · have hc : slot.field.kind = .group := by simpa [Field.isGroup] using hk
        simp [Slot.closed, Field.isCondition, Field.setExtent, hc]
      · intro g hm
        have := (List.pairwise_cons.1 hindices).1 g hm
        omega

theorem exceeds_push {w : Walk} (h : w.Nested) (field : Field) (span : Span) :
    (w.push field span).Exceeds ↔
      w.Exceeds ∨ field.isCondition = false ∧ Storage.maxRecordLength + 1 < w.cursor := by
  constructor
  · rintro ⟨i, t, ⟨hi, hc, ho⟩, hl⟩
    rw [getElem?_push] at hi
    split at hi
    · cases hi
      exact .inr ⟨hc, hl⟩
    · exact .inl ⟨i, t, ⟨hi, hc, ho⟩, hl⟩
  · rintro (⟨i, t, ⟨hi, hc, ho⟩, hl⟩ | ⟨hc, hl⟩)
    · have hlt : i < w.slots.length := (List.getElem?_eq_some_iff.1 hi).1
      refine ⟨i, t, ⟨?_, hc, ho⟩, hl⟩
      rwa [getElem?_push, if_neg (by omega)]
    · refine ⟨w.slots.length, _, ⟨by rw [getElem?_push, if_pos rfl], hc, ?_⟩, hl⟩
      intro g hm he
      have := h.index_lt hm
      omega

theorem exceeds_addGroup {w : Walk} (d : Entry.Descriptor) (entry : Entry) (field : Field)
    (usage : Option String) : (w.addGroup d entry field usage).Exceeds ↔ w.Exceeds := by
  constructor
  · rintro ⟨i, t, ⟨hi, hc, ho⟩, hl⟩
    have hne : w.slots.length ≠ i := ho _ List.mem_cons_self
    have hi' : (w.push (field.setExtent w.cursor w.cursor) entry.span).slots[i]? = some t := hi
    rw [getElem?_push, if_neg (Ne.symm hne)] at hi'
    exact ⟨i, t, ⟨hi', hc, fun g hm => ho g (List.mem_cons_of_mem _ hm)⟩, hl⟩
  · rintro ⟨i, t, ⟨hi, hc, ho⟩, hl⟩
    have hlt : i < w.slots.length := (List.getElem?_eq_some_iff.1 hi).1
    have hi' : (w.push (field.setExtent w.cursor w.cursor) entry.span).slots[i]? = some t := by
      rwa [getElem?_push, if_neg (by omega)]
    refine ⟨i, t, ⟨hi', hc, ?_⟩, hl⟩
    rintro g (_ | ⟨_, hm⟩)
    · simp only [ne_eq]
      omega
    · exact ho g hm

theorem exceeds_finishElementary {w : Walk} (h : w.Nested) {field : Field}
    (hk : field.kind = .elementary) (span : Span) (next : Nat) :
    (w.finishElementary field span next).Exceeds ↔
      w.Exceeds ∨ Storage.maxRecordLength + 1 < max w.cursor next := by
  have ha := h.advance (Nat.le_max_left w.cursor next) w.lastElementary
  have hc : (field.place w.cursor (next - w.cursor)).isCondition = false := by
    simp [Field.isCondition, Field.place, hk]
  have hp := exceeds_push ha (field.place w.cursor (next - w.cursor)) span
  simp only [hc, true_and] at hp
  exact hp

end Walk

/-! ## The walk and the exact walk -/

namespace Exact

open Walk

theorem closeGroup_of_some {w : Walk} {group : OpenGroup} {slot : Slot} (outer : List OpenGroup)
    (hs : w.slots[group.index]? = some slot) (hle : slot.field.startPosition ≤ w.cursor) :
    closeGroup w group outer =
      some (w.finishGroup group.index slot (w.behindGroup slot) outer) := by
  simp [closeGroup, hs, Storage.sub?, hle, behindGroup]

theorem addElementary_eq (rules : Rules) (d : Entry.Descriptor) (entry : Entry) (field : Field)
    (usage : Option String) (w : Walk) :
    addElementary rules d entry field usage w =
      let resolved := w.resolveUsage rules usage d.name entry.span
      let length := Storage.exactLength d.shape resolved.1 d.occurs
      resolved.2.finishElementary { field with usage := usage, encoding := resolved.1 } entry.span
        (resolved.2.cursor + length) := by
  simp only [addElementary, finishElementary, Nat.add_sub_cancel_left,
    Nat.max_eq_right (Nat.le_add_right _ _)]

/-- The walk `w` agrees with the exact walk `x`, or both have met a position that is too large. -/
structure Follows (w x : Walk) : Prop where
  nested : x.Nested
  tooLarge_iff : w.tooLarge = true ↔ x.Exceeds
  eq_of_fits : w.tooLarge = false → w = x

theorem Follows.of_exceeds {w x : Walk} (hn : x.Nested) (ht : w.tooLarge = true)
    (he : x.Exceeds) : Follows w x :=
  ⟨hn, ⟨fun _ => he, fun _ => ht⟩, fun hf => by simp [ht] at hf⟩

theorem Follows.refl {x : Walk} (hn : x.Nested) (ht : x.tooLarge = false) (he : ¬ x.Exceeds) :
    Follows x x :=
  ⟨hn, ⟨fun h => by simp [ht] at h, fun h => absurd h he⟩, fun _ => rfl⟩

/-- The exact walk can close every scope, and the walk closes it alike as long as it fits. -/
theorem exists_close {level : Nat} {x : Walk} {s : Scope} (h : x.Nested)
    (hs : nextScope? level x.groups x.overlays = some s) :
    ∃ x', close x s = some x' ∧ x'.Nested ∧ (x.Exceeds → x'.Exceeds) ∧
      (x.tooLarge = false → ¬ x.Exceeds → Follows (x.close s) x') := by
  cases s with
  | overlay overlay outer =>
    have hc := h.closeOverlay (nextScope?_eq_overlay_iff.1 hs).1
    have he : (x.closeOverlay overlay outer).Exceeds ↔ x.Exceeds := exceeds_of_eq rfl rfl
    exact ⟨_, rfl, hc, he.2, fun ht hx => .refl hc ht (mt he.1 hx)⟩
  | group group outer =>
    obtain ⟨slot, hi, hk, hle⟩ := h.start_le_cursor hs
    have hg := (nextScope?_eq_group_iff.1 hs).1
    have hc := h.finishGroup slot (x.behindGroup slot) hg
    have he := exceeds_finishGroup h (x.behindGroup slot) hg hi hk
    refine ⟨_, closeGroup_of_some outer hi hle, hc, fun hx => he.2 (.inl hx), fun ht hx => ?_⟩
    by_cases hfit : x.behindGroup slot ≤ Storage.maxRecordLength + 1
    · rw [Walk.close, closeGroup_of_le outer hi hfit]
      refine .refl hc ht fun hover => ?_
      rcases he.1 hover with hover | hover
      · exact hx hover
      · omega
    · have hlt : Storage.maxRecordLength + 1 < x.behindGroup slot := by omega
      exact .of_exceeds hc (tooLarge_closeGroup_of_lt outer hi hlt) (he.2 (.inr hlt))

theorem closeScopes_of_none {level : Nat} {x : Walk}
    (hs : nextScope? level x.groups x.overlays = none) : closeScopes level x = some x := by
  rw [closeScopes]
  split
  · rfl
  · rename_i h
    rw [hs] at h
    cases h

theorem closeScopes_of_some {level : Nat} {x x' : Walk} {s : Scope}
    (hs : nextScope? level x.groups x.overlays = some s) (hc : close x s = some x') :
    closeScopes level x = closeScopes level x' := by
  rw [closeScopes]
  split
  · rename_i h
    rw [hs] at h
    cases h
  · rename_i t h
    rw [hs] at h
    cases h
    split
    · rename_i h
      rw [hc] at h
      cases h
    · rename_i y h
      rw [hc] at h
      cases h
      rfl

theorem Follows.closeScopes {w x : Walk} (level : Nat) (h : Follows w x) :
    ∃ x', closeScopes level x = some x' ∧ Follows (w.closeScopes level) x' ∧
      nextScope? level x'.groups x'.overlays = none := by
  induction hd : x.depth using Nat.strongRecOn generalizing w x with
  | _ n ih =>
    cases hs : nextScope? level x.groups x.overlays with
    | none =>
      refine ⟨x, closeScopes_of_none hs, ?_, hs⟩
      cases ht : w.tooLarge with
      | true => exact .of_exceeds h.nested (tooLarge_closeScopes level ht) (h.tooLarge_iff.1 ht)
      | false =>
        obtain rfl := h.eq_of_fits ht
        rwa [Walk.closeScopes_of_none hs]
    | some s =>
      obtain ⟨x₁, hc, hn, he, hf⟩ := exists_close h.nested hs
      have hlt := depth_close hs hc
      rw [closeScopes_of_some hs hc]
      cases ht : w.tooLarge with
      | true => exact ih _ (hd ▸ hlt) (.of_exceeds hn ht (he (h.tooLarge_iff.1 ht))) rfl
      | false =>
        have hx : ¬ x.Exceeds := fun hx => by simp [h.tooLarge_iff.2 hx] at ht
        obtain rfl := h.eq_of_fits ht
        rw [Walk.closeScopes_of_some hs]
        exact ih _ (hd ▸ hlt) (hf ht hx) rfl

theorem Follows.report {w x : Walk} (d : Diagnostic) (h : Follows w x) :
    Follows (w.report d) (x.report d) := by
  have he : (x.report d).Exceeds ↔ x.Exceeds := exceeds_of_eq rfl rfl
  refine ⟨h.nested.report d, h.tooLarge_iff.trans he.symm, fun ht => ?_⟩
  rw [h.eq_of_fits ht]

theorem Follows.addCondition {w x : Walk} (rules : Rules) {d : Entry.Descriptor} (entry : Entry)
    (hk : d.kind = .condition) (h : Follows w x) :
    Follows (w.addCondition rules d entry) (x.addCondition rules d entry) := by
  have hc : ∀ line i slot, (conditionOf d line i slot).isCondition = true := by
    intro line i slot
    simp [conditionOf, Field.isCondition, Field.setExtent, kind_ofDescriptor, hk]
  have hw : (w.addCondition rules d entry).tooLarge = w.tooLarge := by
    obtain he | ⟨e, -, he⟩ | ⟨i, slot, -, -, he⟩ := addCondition_cases rules d entry w <;>
    rw [he] <;> rfl
  have hx : (x.addCondition rules d entry).Nested ∧
      ((x.addCondition rules d entry).Exceeds ↔ x.Exceeds) := by
    obtain he | ⟨e, -, he⟩ | ⟨i, slot, -, -, he⟩ := addCondition_cases rules d entry x
    · rw [he]
      exact ⟨h.nested, Iff.rfl⟩
    · rw [he]
      exact ⟨h.nested.report e, exceeds_of_eq rfl rfl⟩
    · rw [he]
      refine ⟨h.nested.push _ _, ?_⟩
      simp [exceeds_push h.nested, hc]
  refine ⟨hx.1, ?_, fun ht => ?_⟩
  · rw [hw, hx.2]
    exact h.tooLarge_iff
  · rw [h.eq_of_fits (hw ▸ ht)]

/-- Adding an elementary item keeps what is nested and makes a position too large only by its own
length. -/
theorem Follows.addElementary {x : Walk} (rules : Rules) {d : Entry.Descriptor} (entry : Entry)
    {field : Field} (usage : Option String) (hk : field.kind = .elementary) (h : x.Nested) :
    (addElementary rules d entry field usage x).Nested ∧
      (x.Exceeds → (Exact.addElementary rules d entry field usage x).Exceeds) ∧
      (x.tooLarge = false → ¬ x.Exceeds →
        Follows (x.addElementary rules d entry field usage)
          (Exact.addElementary rules d entry field usage x)) := by
  rw [addElementary_eq, Walk.addElementary_eq]
  dsimp only
  have hr := (resolveUsage_cases rules usage d.name entry.span x).2
  generalize x.resolveUsage rules usage d.name entry.span = resolved at hr
  obtain ⟨encoding, v⟩ := resolved
  have hv : v.Nested ∧ (v.Exceeds ↔ x.Exceeds) ∧ v.tooLarge = x.tooLarge := by
    obtain rfl | ⟨e, -, rfl⟩ := hr
    · exact ⟨h, Iff.rfl, rfl⟩
    · exact ⟨h.report e, exceeds_of_eq rfl rfl, rfl⟩
  dsimp only
  have hp : { field with usage := usage, encoding := encoding }.kind = .elementary := hk
  generalize { field with usage := usage, encoding := encoding } = placed at hp ⊢
  have hn : ∀ next, (v.finishElementary placed entry.span next).Nested :=
    fun next => hv.1.finishElementary placed entry.span next
  have he := exceeds_finishElementary hv.1 hp entry.span
    (v.cursor + Storage.exactLength d.shape encoding d.occurs)
  rw [Nat.max_eq_right (Nat.le_add_right _ _), hv.2.1] at he
  obtain ⟨hfit, hover⟩ := Storage.add?_length v.cursor d.shape encoding d.occurs
  refine ⟨hn _, fun hx => he.2 (.inl hx), fun ht hx => ?_⟩
  by_cases hle : v.cursor + Storage.exactLength d.shape encoding d.occurs ≤
      Storage.maxRecordLength + 1
  · rw [hfit hle, bound_of_le _ _ hle]
    refine .refl (hn _) (hv.2.2.trans ht) fun hexc => ?_
    rcases he.1 hexc with hexc | hexc
    · exact hx hexc
    · omega
  · have hlt := Nat.lt_of_not_le hle
    rw [bound_of_lt _ _ (hover hlt)]
    exact .of_exceeds (hn _) (tooLarge_overflow v _ _) (he.2 (.inr hlt))

theorem Follows.declare {w x : Walk} (rules : Rules) {d : Declaration}
    (hk : d.descriptor.kind ≠ .condition)
    (hn : nextScope? d.descriptor.level x.groups x.overlays = none) (h : Follows w x) :
    Follows (w.declare rules d) (declare rules d x) := by
  have hr := h.nested.redefine rules d.descriptor d.entry.span hn
  have hex : (x.redefine rules d.descriptor d.entry.span).2.Exceeds ↔ x.Exceeds :=
    exceeds_of_eq (by simp) (by simp)
  have htl := tooLarge_redefine rules d.descriptor d.entry.span x
  have hf := kind_fieldOf x d (x.redefine rules d.descriptor d.entry.span).1
  have hstep : (Exact.declare rules d x).Nested ∧
      (x.Exceeds → (Exact.declare rules d x).Exceeds) ∧
      (x.tooLarge = false → ¬ x.Exceeds →
        Follows (x.declare rules d) (Exact.declare rules d x)) := by
    unfold Walk.declare Exact.declare
    cases hd : d.descriptor.kind with
    | condition => exact absurd hd hk
    | group =>
      have hlevels : ∀ g ∈ (x.redefine rules d.descriptor d.entry.span).2.groups,
          g.level < d.descriptor.level := by simpa using (h.nested.levels_lt hn).1
      have hkind : (x.fieldOf d (x.redefine rules d.descriptor d.entry.span).1).isGroup = true := by
        simp [Field.isGroup, hf, hd]
      have hg := hr.addGroup d.descriptor d.entry (x.usageOf d.descriptor) hkind hlevels
      have he := (exceeds_addGroup d.descriptor d.entry
        (x.fieldOf d (x.redefine rules d.descriptor d.entry.span).1)
        (x.usageOf d.descriptor)).trans hex
      exact ⟨hg, he.2, fun ht hx => .refl hg (htl.trans ht) (mt he.1 hx)⟩
    | elementary =>
      obtain ⟨ha, hb, hc⟩ := Follows.addElementary rules d.entry (x.usageOf d.descriptor)
        (hf.trans hd) hr
      exact ⟨ha, fun hx => hb (hex.2 hx), fun ht hx => hc (htl.trans ht) (mt hex.1 hx)⟩
  obtain ⟨hnest, hexc, hfol⟩ := hstep
  cases ht : w.tooLarge with
  | true =>
    exact .of_exceeds hnest (tooLarge_declare rules d ht) (hexc (h.tooLarge_iff.1 ht))
  | false =>
    have hx : ¬ x.Exceeds := fun hx => by simp [h.tooLarge_iff.2 hx] at ht
    obtain rfl := h.eq_of_fits ht
    exact hfol ht hx

theorem Follows.addEntry {w x : Walk} (rules : Rules) (entry : Entry) (h : Follows w x) :
    ∃ x', Exact.addEntry rules x entry = some x' ∧ Follows (w.addEntry rules entry) x' := by
  unfold Exact.addEntry Walk.addEntry
  cases hs : Entry.scan entry.text entry.span with
  | error d => exact ⟨_, rfl, h.report d⟩
  | ok scanned =>
    cases scanned with
    | none => exact ⟨_, rfl, h⟩
    | some d =>
      dsimp only
      cases hd : d.kind with
      | condition => exact ⟨_, rfl, h.addCondition rules entry hd⟩
      | _ =>
        obtain ⟨x', hx, hf, hn⟩ := h.closeScopes d.level
        refine ⟨Exact.declare rules ⟨d, entry⟩ x', by rw [hx]; rfl, ?_⟩
        exact addField_eq rules ⟨d, entry⟩ w ▸ hf.declare rules (by simp [hd]) hn

/-- A walk agrees with the exact walk until a position lies beyond the largest record. -/
theorem exists_follows_run (rules : Rules) (entries : List Entry) :
    ∃ x, run rules entries = some x ∧ Follows (Walk.run rules entries) x ∧ x.groups = [] := by
  have hfold : ∀ w x, Follows w x → ∃ x', entries.foldlM (Exact.addEntry rules) x = some x' ∧
      Follows (entries.foldl (Walk.addEntry rules) w) x' := by
    induction entries with
    | nil => exact fun w x h => ⟨x, rfl, h⟩
    | cons entry rest ih =>
      intro w x h
      obtain ⟨x₁, hx, hf⟩ := h.addEntry rules entry
      obtain ⟨x', hx', hf'⟩ := ih _ _ hf
      exact ⟨x', by simp [List.foldlM_cons, hx, hx'], hf'⟩
  have hstart : Follows (start rules) (start rules) := by
    refine .refl (Nested.start rules) rfl ?_
    rintro ⟨i, slot, ⟨hi, -⟩, -⟩
    simp [start] at hi
  obtain ⟨x₁, hx, hf⟩ := hfold _ _ hstart
  obtain ⟨x, hx', hf', hn⟩ := hf.closeScopes 0
  refine ⟨x, by simp [run, hx, hx'], hf', ?_⟩
  cases hg : x.groups with
  | nil => rfl
  | cons g rest =>
    have := (nextScope?_eq_none_iff.1 hn).1 g (by simp [hg])
    omega

/-! ## Records -/

/-- A walk without open groups reaches too far exactly when some position, other than a condition
name's, lies beyond the largest record. -/
theorem exceeds_iff {x : Walk} (h : x.groups = []) :
    x.Exceeds ↔ ∃ slot ∈ x.slots, slot.field.isCondition = false ∧
      Storage.maxRecordLength + 1 < slot.limit := by
  constructor
  · rintro ⟨i, slot, ⟨hi, hc, -⟩, hl⟩
    exact ⟨slot, List.mem_of_getElem? hi, hc, hl⟩
  · rintro ⟨slot, hm, hc, hl⟩
    obtain ⟨i, hi⟩ := List.getElem?_of_mem hm
    exact ⟨i, slot, ⟨hi, hc, by simp [h]⟩, hl⟩

theorem reports_tooLarge_iff {rules : Rules} {entries : List Entry} {x : Walk}
    (h : Follows (Walk.run rules entries) x) (hg : x.groups = []) :
    (ofEntries rules entries).reports .recordTooLarge = true ↔
      ∃ slot ∈ x.slots, slot.field.isCondition = false ∧
        Storage.maxRecordLength + 1 < slot.limit := by
  rw [reports_tooLarge, h.tooLarge_iff, exceeds_iff hg]

theorem ofEntries_eq {rules : Rules} {entries : List Entry} {x : Walk}
    (h : Follows (Walk.run rules entries) x)
    (hr : (ofEntries rules entries).reports .recordTooLarge = false) :
    ofEntries rules entries = ofWalk rules x := by
  rw [reports_tooLarge] at hr
  rw [ofEntries, h.eq_of_fits hr]

/-- Every field with storage ends inside the largest record, if none is reported. -/
theorem end_le_of_mem_ofEntries {rules : Rules} {entries : List Entry}
    (hr : (ofEntries rules entries).reports .recordTooLarge = false) {f : Field}
    (hf : f ∈ (ofEntries rules entries).fields) (hb : 0 < f.storageLength) :
    f.endPosition ≤ Storage.maxRecordLength := by
  obtain ⟨x, -, hfol, hg⟩ := exists_follows_run rules entries
  obtain ⟨slot, hs, he⟩ := exists_slot_of_mem_ofWalk hf
  have hm := Walk.isMeasured_run rules entries slot hs
  have hlength := congrArg Field.storageLength he
  have hend := congrArg Field.endPosition he
  simp only [Field.unlinked] at hlength hend
  have hk : slot.field.isElementary = true := by
    cases hk : slot.field.isElementary with
    | true => rfl
    | false =>
      have := hm.storage_eq hk
      omega
  have hc : slot.field.isCondition = false := by
    have : slot.field.kind = .elementary := by simpa [Field.isElementary] using hk
    simp [Field.isCondition, this]
  have hfit : ¬ Storage.maxRecordLength + 1 < slot.limit := fun hl => by
    have hx := hfol.eq_of_fits (reports_tooLarge rules entries ▸ hr)
    have := (reports_tooLarge_iff hfol hg).2 ⟨slot, hx ▸ hs, hc, hl⟩
    simp [hr] at this
  have hlimit := hm.limit_eq hk
  have hlast := hm.end_eq hk
  rw [if_pos (by omega)] at hlast
  omega

end Exact

end Record

end DataDivision
