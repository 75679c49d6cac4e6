import DataDivision.Proofs.Record.Nesting
import DataDivision.Proofs.Record.Pruning

/-!
The bytes of fields.

An elementary item has exactly the bytes of its length, and the position behind it is its limit; no
other field has storage of its own, and none has bytes beyond the largest record.
-/

namespace DataDivision.Record

/-- What the bytes of a slot's field have to do with one another. -/
structure Slot.IsMeasured (slot : Slot) : Prop where
  limit_eq : slot.field.isElementary = true →
    slot.limit = slot.field.startPosition + slot.field.storageLength
  end_eq : slot.field.isElementary = true →
    slot.field.endPosition =
      if 0 < slot.field.storageLength then
        slot.field.startPosition + slot.field.storageLength - 1
      else slot.field.startPosition
  storage_eq : slot.field.isElementary = false → slot.field.storageLength = 0

theorem isElementary_eq (f : Field) : f.isElementary = (f.kind == .elementary) := rfl

theorem Slot.isMeasured_place {field : Field} (hk : field.kind = .elementary) (span : Span)
    (cursor next : Nat) :
    Slot.IsMeasured ⟨field.place cursor (next - cursor), max cursor next, span⟩ where
  limit_eq _ := by
    simp only [Field.place]
    omega
  end_eq _ := rfl
  storage_eq he := by
    have hp : (field.place cursor (next - cursor)).isElementary = true := by
      simp [isElementary_eq, Field.place, hk]
    simp only at he
    rw [hp] at he
    cases he

/-- A group or a condition name covers bytes and has none. -/
theorem Slot.isMeasured_setExtent {field : Field} (hk : field.kind ≠ .elementary) (span : Span)
    (first last limit : Nat) :
    Slot.IsMeasured ⟨field.setExtent first last, limit, span⟩ := by
  have he : (field.setExtent first last).isElementary = false := by
    simpa [isElementary_eq, Field.setExtent] using hk
  constructor
  · intro h
    simp only at h
    rw [he] at h
    cases h
  · intro h
    simp only at h
    rw [he] at h
    cases h
  · exact fun _ => rfl

theorem kind_fieldOf (w : Walk) (x : Declaration) (target : Option Nat) :
    (w.fieldOf x target).kind = x.descriptor.kind :=
  Walk.kind_ofDescriptor x.descriptor x.entry.line

namespace Walk

theorem isMeasured_close {w : Walk} {level : Nat} {s : Scope}
    (hs : nextScope? level w.groups w.overlays = some s) (hn : w.Nested)
    (h : ∀ slot ∈ w.slots, slot.IsMeasured) : ∀ slot ∈ (w.close s).slots, slot.IsMeasured := by
  cases s with
  | overlay overlay outer => exact h
  | group group outer =>
    obtain ⟨slot, hi, hk, -⟩ := hn.start_le_cursor hs
    rw [Walk.close, closeGroup_of_some outer hi]
    intro t ht
    simp only [finishGroup, slots_bound] at ht
    rcases List.mem_or_eq_of_mem_set ht with ht | rfl
    · exact h t ht
    · refine Slot.isMeasured_setExtent (fun he => ?_) slot.span _ _ _
      simp [Field.isGroup, he] at hk

theorem isMeasured_finishElementary {w : Walk} {field : Field} (hk : field.kind = .elementary)
    (span : Span) (next : Nat) (h : ∀ slot ∈ w.slots, slot.IsMeasured) :
    ∀ slot ∈ (w.finishElementary field span next).slots, slot.IsMeasured := by
  intro slot hm
  simp only [finishElementary, push] at hm
  rcases List.mem_append.1 hm with hm | hm
  · exact h slot hm
  · rw [List.mem_singleton.1 hm]
    exact Slot.isMeasured_place hk span _ _

theorem isMeasured_declare {w : Walk} (rules : Rules) {x : Declaration}
    (hk : x.descriptor.kind ≠ .condition) (h : ∀ slot ∈ w.slots, slot.IsMeasured) :
    ∀ slot ∈ (w.declare rules x).slots, slot.IsMeasured := by
  have hf := kind_fieldOf w x (w.redefine rules x.descriptor x.entry.span).1
  unfold declare
  cases hd : x.descriptor.kind with
  | condition => exact absurd hd hk
  | group =>
    intro slot hm
    simp only [addGroup, push, slots_redefine] at hm
    rcases List.mem_append.1 hm with hm | hm
    · exact h slot hm
    · rw [List.mem_singleton.1 hm]
      exact Slot.isMeasured_setExtent (by simp [hf, hd]) _ _ _ _
  | elementary =>
    simp only [addElementary_eq]
    refine isMeasured_finishElementary ?_ _ _ ?_
    · exact hf.trans hd
    · simpa using h

theorem isMeasured_run (rules : Rules) (entries : List Entry) :
    ∀ slot ∈ (run rules entries).slots, slot.IsMeasured := by
  refine (run_induct (P := fun w => w.Nested ∧ ∀ slot ∈ w.slots, slot.IsMeasured)
    ⟨Nested.start rules, by simp [start]⟩ ?_ ?_ ?_ ?_ entries).2
  · exact fun w level s hs h => ⟨h.1.close hs, isMeasured_close hs h.1 h.2⟩
  · exact fun w d _ h => ⟨h.1.report d, h.2⟩
  · intro w d line span i slot hk _ _ h
    refine ⟨h.1.push _ span, fun t ht => ?_⟩
    rcases List.mem_append.1 ht with ht | ht
    · exact h.2 t ht
    · have hf : ({ Field.ofDescriptor d line with host := some i } : Field).kind ≠ .elementary := by
        simp [kind_ofDescriptor, hk]
      rw [List.mem_singleton.1 ht]
      exact Slot.isMeasured_setExtent hf _ _ _ _
  · exact fun w x hk hn h => ⟨h.1.declare rules x hn, isMeasured_declare rules hk h.2⟩

end Walk

/-- A field of a record has the bytes that its length tells. -/
theorem isMeasured_of_mem_ofEntries {rules : Rules} {entries : List Entry} {f : Field}
    (h : f ∈ (ofEntries rules entries).fields) :
    (f.isElementary = false → f.storageLength = 0) ∧
      (f.isElementary = true → f.endPosition =
        if 0 < f.storageLength then f.startPosition + f.storageLength - 1
        else f.startPosition) := by
  obtain ⟨slot, hs, hf⟩ := exists_slot_of_mem_ofWalk h
  have hm := Walk.isMeasured_run rules entries slot hs
  have hkind := congrArg Field.isElementary hf
  have hstart := congrArg Field.startPosition hf
  have hend := congrArg Field.endPosition hf
  have hlength := congrArg Field.storageLength hf
  simp only [Field.unlinked, isElementary_eq] at hkind hstart hend hlength
  have hstorage := hm.storage_eq
  have hends := hm.end_eq
  simp only [isElementary_eq] at hstorage hends ⊢
  rw [← hkind, ← hstart, ← hend, ← hlength]
  exact ⟨hstorage, hends⟩

/-- The bytes of an elementary field of a record are those from its first to its last. -/
theorem end_eq_of_mem_ofEntries {rules : Rules} {entries : List Entry} {f : Field}
    (h : f ∈ (ofEntries rules entries).fields) (he : f.isElementary = true)
    (hb : 0 < f.storageLength) : f.endPosition = f.startPosition + f.storageLength - 1 := by
  rw [(isMeasured_of_mem_ofEntries h).2 he, if_pos hb]

/-! ## Ends of fields -/

/-- The bytes of the field, if it has any, are in the largest record. -/
def Slot.IsWithin (slot : Slot) : Prop :=
  0 < slot.field.storageLength →
    slot.field.startPosition + slot.field.storageLength ≤ Storage.maxRecordLength + 1

/-- A field without storage of its own is nowhere. -/
theorem Slot.isWithin_of_eq_zero {slot : Slot} (h : slot.field.storageLength = 0) :
    slot.IsWithin := by
  intro hb
  omega

theorem Slot.isWithin_place (field : Field) (span : Span) {cursor next : Nat} (limit : Nat)
    (hn : next ≤ Storage.maxRecordLength + 1) :
    Slot.IsWithin ⟨field.place cursor (next - cursor), limit, span⟩ := by
  intro h
  simp only [Field.place] at h ⊢
  omega

namespace Walk

/-- One more slot within the largest record. -/
theorem isWithin_snoc {w u : Walk} {slot : Slot} (hs : u.slots = w.slots ++ [slot])
    (h : ∀ s ∈ w.slots, s.IsWithin) (hslot : slot.IsWithin) : ∀ s ∈ u.slots, s.IsWithin := by
  intro s hm
  rw [hs, List.mem_append] at hm
  rcases hm with hm | hm
  · exact h s hm
  · exact List.mem_singleton.1 hm ▸ hslot

theorem isWithin_close {w : Walk} (s : Scope) (h : ∀ slot ∈ w.slots, slot.IsWithin) :
    ∀ slot ∈ (w.close s).slots, slot.IsWithin := by
  cases s with
  | overlay overlay outer => exact h
  | group group outer =>
    cases hi : w.slots[group.index]? with
    | none => simpa [close, closeGroup, hi] using h
    | some slot =>
      rw [close, closeGroup_of_some outer hi]
      intro t ht
      simp only [finishGroup, slots_bound] at ht
      rcases List.mem_or_eq_of_mem_set ht with ht | rfl
      · exact h t ht
      · exact Slot.isWithin_of_eq_zero rfl

theorem isWithin_declare {w : Walk} (rules : Rules) (x : Declaration)
    (h : ∀ slot ∈ w.slots, slot.IsWithin) : ∀ slot ∈ (w.declare rules x).slots, slot.IsWithin := by
  have hslots := slots_redefine rules x.descriptor x.entry.span w
  unfold declare
  generalize w.redefine rules x.descriptor x.entry.span = opened at hslots ⊢
  rw [← hslots] at h
  dsimp only
  split
  · exact isWithin_snoc rfl h (Slot.isWithin_of_eq_zero rfl)
  · rw [addElementary_eq]
    dsimp only
    refine isWithin_snoc rfl ?_ (Slot.isWithin_place _ _ _ (fst_bound_le _ _ _ _))
    simpa using h

theorem isWithin_run (rules : Rules) (entries : List Entry) :
    ∀ slot ∈ (run rules entries).slots, slot.IsWithin :=
  run_induct (P := fun w => ∀ slot ∈ w.slots, slot.IsWithin) (by simp [start])
    (fun _ _ s _ h => isWithin_close s h) (fun _ _ _ h => h)
    (fun _ _ _ _ _ _ _ _ _ h => isWithin_snoc rfl h (Slot.isWithin_of_eq_zero rfl))
    (fun _ x _ _ h => isWithin_declare rules x h) entries

end Walk

/-- No field with bytes reaches beyond the largest record, also where the record was cut off. -/
theorem stored_le_of_mem_ofEntries {rules : Rules} {entries : List Entry} {f : Field}
    (h : f ∈ (ofEntries rules entries).fields) (hb : 0 < f.storageLength) :
    f.startPosition + f.storageLength ≤ Storage.maxRecordLength + 1 := by
  obtain ⟨slot, hs, hf⟩ := exists_slot_of_mem_ofWalk h
  have hwithin := Walk.isWithin_run rules entries slot hs
  have hstart := congrArg Field.startPosition hf
  have hlength := congrArg Field.storageLength hf
  simp only [Field.unlinked] at hstart hlength
  rw [Slot.IsWithin, hstart, hlength] at hwithin
  exact hwithin hb

end DataDivision.Record
