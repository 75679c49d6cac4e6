import DataDivision.Proofs.Record.Length

/-!
The last byte of a record.

Only bytes move the frontier of a walk on: those of an elementary item, or those of the repetitions
of a group (`Tight`).  So a record that keeps all its fields ends with the last byte of one of them
(`recordEnd_eq`).  Its length as a layout is the last end of a field instead, and an item without
bytes has an end as well, which may lie one position behind the last byte (`totalLength_eq`).
-/

namespace DataDivision

/-- The field has bytes of its own, or is a group that reaches further than its first position. -/
def Field.Fills (f : Field) : Prop :=
  f.HasBytes ∨ f.isGroup = true ∧ f.startPosition < f.endPosition

instance (f : Field) : Decidable f.Fills :=
  inferInstanceAs (Decidable (f.HasBytes ∨ f.isGroup = true ∧ f.startPosition < f.endPosition))

theorem Field.Fills.isCondition {f : Field} (h : f.Fills) : f.isCondition = false := by
  rcases h with ⟨h, -⟩ | ⟨h, -⟩
  · exact isCondition_of_isElementary h
  · exact isCondition_of_isGroup h

namespace Record

/-- The position behind the last byte of some fields, or the first position if that is further. -/
def behindBytes (first : Nat) (fields : List Field) : Nat :=
  ((fields.filter fun f => f.Fills).map (·.endPosition + 1)).foldr max first

theorem behindBytes_le_iff {first n : Nat} {fields : List Field} :
    behindBytes first fields ≤ n ↔
      first ≤ n ∧ ∀ f ∈ fields, f.Fills → f.endPosition < n := by
  unfold behindBytes
  induction fields with
  | nil => simp
  | cons f rest ih =>
    rw [List.forall_mem_cons]
    by_cases hf : f.Fills
    · rw [List.filter_cons_of_pos (by simpa using hf), List.map_cons, List.foldr_cons, Nat.max_le,
        ih]
      constructor
      · rintro ⟨hlt, hfirst, hrest⟩
        exact ⟨hfirst, fun _ => hlt, hrest⟩
      · rintro ⟨hfirst, hlt, hrest⟩
        exact ⟨hlt hf, hfirst, hrest⟩
    · rw [List.filter_cons_of_neg (by simpa using hf), ih]
      simp only [hf, false_implies, true_and]

theorem lt_behindBytes (first : Nat) {fields : List Field} {f : Field} (hm : f ∈ fields)
    (hf : f.Fills) : f.endPosition < behindBytes first fields :=
  (behindBytes_le_iff.1 (Nat.le_refl _)).2 f hm hf

theorem behindBytes_snoc_le_iff {first n : Nat} {fields : List Field} {f : Field} :
    behindBytes first (fields ++ [f]) ≤ n ↔
      behindBytes first fields ≤ n ∧ (f.Fills → f.endPosition < n) := by
  simp only [behindBytes_le_iff, List.forall_mem_append, List.forall_mem_singleton, and_assoc]

/-- A group that closes behind more than one position reaches up to there. -/
theorem Slot.endPosition_closed (slot : Slot) {next : Nat}
    (h : slot.field.startPosition + 1 < next) :
    (slot.closed next).field.endPosition = next - 1 := by
  simp only [Slot.closed, Field.setExtent]
  split <;> omega

theorem Slot.fills_closed_iff (slot : Slot) (hg : slot.field.isGroup = true) (next : Nat) :
    (slot.closed next).field.Fills ↔ slot.field.startPosition + 1 < next := by
  have hgroup : (slot.closed next).field.isGroup = true := hg
  have hbytes : ¬ (slot.closed next).field.HasBytes := fun hb => Nat.lt_irrefl 0 hb.2
  simp only [Field.Fills, hbytes, hgroup, false_or, true_and]
  simp only [Slot.closed, Field.setExtent]
  split <;> omega

namespace Walk

/-- An item with bytes has its limit behind them; any other has it where it starts. -/
theorem Places.limit_cases {w u v : Walk} {x : Declaration} {target : Option Nat} {slot : Slot}
    (hp : Places w u x target v slot) (hk : x.descriptor.kind ≠ .condition) :
    slot.field.Fills ∧ slot.limit = slot.field.endPosition + 1 ∨
      ¬ slot.field.Fills ∧ slot.limit = v.cursor := by
  have hstart := hp.start_eq
  cases hd : x.descriptor.kind with
  | condition => exact absurd hd hk
  | group =>
    obtain ⟨-, -, hcursor, hend⟩ := hp.of_group hd
    refine .inr ⟨?_, hp.limit_eq.trans hcursor⟩
    rintro (⟨he, -⟩ | ⟨-, hlt⟩)
    · simp [Field.isElementary, hp.kind_eq, hd] at he
    · omega
  | elementary =>
    have he : slot.field.isElementary = true := by simp [Field.isElementary, hp.kind_eq, hd]
    have hmeasured := hp.measured.limit_eq he
    have hend := hp.measured.end_eq he
    rcases Nat.eq_zero_or_pos slot.field.storageLength with hz | hpos
    · refine .inr ⟨?_, by omega⟩
      rintro (⟨-, hb⟩ | ⟨hgroup, -⟩)
      · omega
      · rw [Field.isElementary_of_isGroup hgroup] at he
        cases he
    · rw [if_pos hpos] at hend
      exact .inl ⟨.inl ⟨he, hpos⟩, by omega⟩

/-- Nothing but bytes is passed: the frontier is where the last byte ends. -/
structure Tight (first : Nat) (w : Walk) : Prop where
  bounded : w.Bounded first
  passed : w.Passed
  frontier_eq : w.frontier = behindBytes first w.fields

namespace Tight

variable {first : Nat} {w u v : Walk}

/-- A group that closes without passing the cursor has no bytes behind it. -/
theorem next_le_frontier {group : OpenGroup} {slot : Slot} {next : Nat}
    (hc : Closes w u group slot next) (hn : next ≤ slot.field.startPosition + 1) :
    next ≤ w.frontier := by
  refine Nat.le_trans ?_ (cursor_le_frontier w)
  rcases Nat.lt_or_ge slot.field.startPosition w.cursor with hlt | hge
  · omega
  · have hle := hc.next_le
    rw [behindGroup, Nat.sub_eq_zero_of_le hge, Nat.zero_mul] at hle
    have := hc.start_le
    omega

/-- A closed group accounts for the bytes up to its end. -/
theorem behindBytes_closes {group : OpenGroup} {slot : Slot} {next : Nat} (h : w.Tight first)
    (hc : Closes w u group slot next) :
    behindBytes first u.fields = max (behindBytes first w.fields) next := by
  have hopen := h.bounded.open_end group (hc.groups_eq ▸ List.mem_cons_self) slot hc.slot_eq
  have hslot : ¬ slot.field.Fills := by
    rintro (⟨he, -⟩ | ⟨-, hlt⟩)
    · rw [hc.isElementary] at he
      cases he
    · omega
  refine eq_of_forall_ge_iff fun n => ?_
  rw [Nat.max_le, behindBytes_le_iff, behindBytes_le_iff]
  constructor
  · rintro ⟨hfirst, hall⟩
    have hold : ∀ f ∈ w.fields, f.Fills → f.endPosition < n := by
      intro f hm hf
      obtain ⟨i, hi⟩ := List.mem_iff_getElem?.1 hm
      obtain ⟨s, hs, rfl⟩ := getElem?_fields.1 hi
      rcases hc.kept hs with ⟨rfl, -⟩ | hu
      · exact absurd hf hslot
      · exact hall _ (field_mem_fields (List.mem_of_getElem? hu)) hf
    refine ⟨⟨hfirst, hold⟩, ?_⟩
    -- A group of one position or none ends where the cursor has been.
    rcases Nat.lt_or_ge (slot.field.startPosition + 1) next with hlt | hge
    · have := hall _ (field_mem_fields (List.mem_of_getElem? hc.getElem?_index))
        ((slot.fills_closed_iff hc.isGroup next).2 hlt)
      rw [slot.endPosition_closed hlt] at this
      omega
    · have hle := next_le_frontier hc hge
      rw [h.frontier_eq] at hle
      exact Nat.le_trans hle (behindBytes_le_iff.2 ⟨hfirst, hold⟩)
  · rintro ⟨⟨hfirst, hold⟩, hn⟩
    refine ⟨hfirst, fun f hm hf => ?_⟩
    obtain ⟨i, hi⟩ := List.mem_iff_getElem?.1 hm
    obtain ⟨s, hs, rfl⟩ := getElem?_fields.1 hi
    rcases hc.getElem?_slots hs with ⟨-, rfl⟩ | ⟨-, hs⟩
    · have hlt := (slot.fills_closed_iff hc.isGroup next).1 hf
      rw [slot.endPosition_closed hlt]
      omega
    · exact hold _ (field_mem_fields (List.mem_of_getElem? hs)) hf

theorem closes {group : OpenGroup} {slot : Slot} {next : Nat} (h : w.Tight first) (hn : w.Nested)
    (hc : Closes w u group slot next) : u.Tight first where
  bounded := h.bounded.closes hn hc
  passed := stepInvariant_passed.closes w u group slot next hn hc h.passed
  frontier_eq := by rw [hc.frontier_eq, h.behindBytes_closes hc, h.frontier_eq]

/-- An item moves the frontier on by its bytes. -/
theorem behindBytes_places {x : Declaration} {target : Option Nat} {slot : Slot}
    (h : w.Tight first) (hk : x.descriptor.kind ≠ .condition)
    (hp : Places w u x target v slot) : behindBytes first u.fields = max w.frontier slot.limit := by
  have hv : v.cursor ≤ w.frontier := by
    rw [← h.passed.frontier_rewinds hp.rewinds]
    exact cursor_le_frontier v
  refine eq_of_forall_ge_iff fun n => ?_
  rw [fields_snoc hp.slots_eq, behindBytes_snoc_le_iff, ← h.frontier_eq, Nat.max_le]
  rcases hp.limit_cases hk with ⟨hf, hl⟩ | ⟨hf, hl⟩
  · simp only [hf, forall_const, hl, Nat.succ_le_iff]
  · simp only [hf, false_implies, and_true, hl]
    exact ⟨fun hn => ⟨hn, Nat.le_trans hv hn⟩, And.left⟩

theorem places {x : Declaration} {target : Option Nat} {slot : Slot} (h : w.Tight first)
    (hn : w.Nested) (hk : x.descriptor.kind ≠ .condition)
    (hscope : nextScope? x.descriptor.level w.groups w.overlays = none)
    (hp : Places w u x target v slot) : u.Tight first where
  bounded := h.bounded.places hn hk hp
  passed := stepInvariant_passed.places w u x target v slot hn hk hscope hp h.passed
  frontier_eq := by rw [h.passed.frontier_places hp, h.behindBytes_places hk hp]

theorem condition (h : w.Tight first) (hn : w.Nested) {d : Entry.Descriptor}
    (hk : d.kind = .condition) (line : Nat) {i : Nat} {slot : Slot} (span : Span)
    (hl : w.lastElementary = some i) (hi : w.slots[i]? = some slot) :
    (w.push (conditionOf d line i slot) span).Tight first where
  bounded := h.bounded.condition hn d line i span (List.mem_of_getElem? hi)
  passed := stepInvariant_passed.condition w d line span i slot hk hn hl hi h.passed
  frontier_eq := by
    have hf : ¬ (conditionOf d line i slot).Fills := by
      intro hf
      have hc := hf.isCondition
      rw [isCondition_conditionOf hk] at hc
      cases hc
    refine h.frontier_eq.trans (eq_of_forall_ge_iff fun n => ?_)
    rw [fields_snoc (slots_push w _ span), behindBytes_snoc_le_iff]
    simp only [hf, false_implies, and_true]

end Tight

theorem tight_run (rules : Rules) (entries : List Entry) :
    (run rules entries).Tight (start rules).cursor := by
  refine run_steps (P := fun w => w.Tight (start rules).cursor)
    ⟨.start rules, .start rules, rfl⟩ ?_ ?_ ?_ ?_ ?_ entries
  · exact fun w u group slot next hn hc h => h.closes hn hc
  · exact fun w overlay outer hn ho h => ⟨h.bounded.closeOverlay ho,
      stepInvariant_passed.settles w overlay outer hn ho h.passed,
      (frontier_closeOverlay ho).trans h.frontier_eq⟩
  · exact fun w d h => ⟨h.bounded.report d, stepInvariant_passed.report w d h.passed,
      h.frontier_eq⟩
  · exact fun w d line span i slot hk hn hl hi h => h.condition hn hk line span hl hi
  · exact fun w u x target v slot hn hk hscope hp h => h.places hn hk hscope hp

/-- A whole walk ends behind the last byte. -/
theorem cursor_run (rules : Rules) (entries : List Entry) :
    (run rules entries).cursor = behindBytes (start rules).cursor (run rules entries).fields := by
  rw [← (tight_run rules entries).frontier_eq]
  exact (frontier_of_overlays_nil (groups_run rules entries).2).symm

/-- No field ends before it starts. -/
theorem stepInvariant_start_le_end : StepInvariant fun w =>
    ∀ slot ∈ w.slots, slot.field.startPosition ≤ slot.field.endPosition where
  closes w u group slot next _ hc h := by
    intro s hs
    rw [hc.slots_eq] at hs
    rcases List.mem_or_eq_of_mem_set hs with hs | rfl
    · exact h s hs
    · simp only [Slot.closed, Field.setExtent]
      split <;> omega
  settles _ _ _ _ _ h := h
  report _ _ h := h
  condition w d line span i slot _ _ _ hi h := by
    intro s hs
    rw [slots_push] at hs
    rcases List.mem_append.1 hs with hs | hs
    · exact h s hs
    · rw [List.mem_singleton.1 hs]
      exact h slot (List.mem_of_getElem? hi)
  places w u x target v slot _ hk _ hp h := by
    intro s hs
    rw [hp.slots_eq] at hs
    rcases List.mem_append.1 hs with hs | hs
    · exact h s hs
    · rw [List.mem_singleton.1 hs]
      cases hd : x.descriptor.kind with
      | condition => exact absurd hd hk
      | group => exact Nat.le_of_eq (hp.start_eq.trans (hp.of_group hd).2.2.2.symm)
      | elementary =>
        rw [hp.measured.end_eq (by simp [Field.isElementary, hp.kind_eq, hd])]
        split <;> omega

theorem start_le_end_run (rules : Rules) (entries : List Entry) :
    ∀ slot ∈ (run rules entries).slots, slot.field.startPosition ≤ slot.field.endPosition := by
  have h := stepInvariant_start_le_end
  refine run_steps ?_ h.closes h.settles h.report h.condition h.places entries
  simp [start]

end Walk

/-! ## The end of a record -/

theorem SameBytes.fills {f g : Field} (h : SameBytes f g) : f.Fills ↔ g.Fills := by
  simp only [Field.Fills, Field.HasBytes, Field.isElementary, Field.isGroup, h.kind_eq,
    h.storage_eq, h.start_eq, h.end_eq]

section

variable {rules : Rules}

theorem isDropped_eq_false (hi : rules.config.fieldProcessing.includeFillers = true)
    (hx : rules.config.fieldProcessing.excludeFieldNames = []) (f : Field) :
    isDropped rules.config.fieldProcessing f = false := by
  simp [isDropped, hi, hx]

/-- Rules that keep all fields keep all bytes. -/
theorem behindBytes_ofEntries (hi : rules.config.fieldProcessing.includeFillers = true)
    (hx : rules.config.fieldProcessing.excludeFieldNames = []) (first : Nat)
    (entries : List Entry) :
    behindBytes first (ofEntries rules entries).fields =
      behindBytes first (Walk.run rules entries).fields := by
  refine eq_of_forall_ge_iff fun n => ?_
  rw [behindBytes_le_iff, behindBytes_le_iff]
  refine and_congr_right fun _ => ⟨fun h f hm hf => ?_, fun h f hm hf => ?_⟩
  · obtain ⟨slot, hs, rfl⟩ := List.mem_map.1 hm
    obtain ⟨g, hg, hsame⟩ := exists_sameBytes_of_kept (Walk.linked_run rules entries) hs
      hf.isCondition (isDropped_eq_false hi hx _)
    rw [hsame.end_eq]
    exact h g hg (hsame.fills.1 hf)
  · obtain ⟨k, hk⟩ := List.mem_iff_getElem?.1 hm
    obtain ⟨i, slot, hs, -, hsame⟩ := exists_slot_of_getElem?_ofWalk hk
    rw [← hsame.end_eq]
    exact h _ (Walk.field_mem_fields (List.mem_of_getElem? hs)) (hsame.fills.2 hf)

/-- A record that keeps all its fields ends with their last byte: it has no bytes that none of them
accounts for, and none of them reaches behind its end. -/
theorem recordEnd_eq (hi : rules.config.fieldProcessing.includeFillers = true)
    (hx : rules.config.fieldProcessing.excludeFieldNames = []) (entries : List Entry) :
    (ofEntries rules entries).recordEnd =
      behindBytes (rules.startPosition + rules.codeWidth) (ofEntries rules entries).fields - 1 := by
  rw [behindBytes_ofEntries hi hx]
  exact congrArg (· - 1) (Walk.cursor_run rules entries)

/-- The redefinition is longer than the item, and the filler has the last byte. -/
theorem recordEnd_eq_redefinition :
    let entries := Entry.ofLines none (Source.ofLines (["01 A.", "   05 B PIC X(4).",
      "   05 C REDEFINES B.", "      10 D PIC X(3) OCCURS 2.",
      "   05 FILLER PIC X."].map String.toList)).lines
    ∃ rules : Rules,
      Rules.interpretWith .plain { fieldProcessing := { includeFillers := true } } = .ok rules ∧
      (ofEntries rules entries).recordEnd = 7 ∧
      (ofEntries rules entries).recordEnd = behindBytes (rules.startPosition + rules.codeWidth)
        (ofEntries rules entries).fields - 1 := by
  intro entries
  have hend : (ofEntries Rules.keepingFillers entries).recordEnd = 7 := by decide +kernel
  exact ⟨Rules.keepingFillers, Rules.interpret_keepingFillers, hend, recordEnd_eq rfl rfl entries⟩

/-! ## The length of a record -/

/-- A field that counts towards the length of a layout, and stands behind the last byte. -/
def StandsBehind (record : Record) (f : Field) : Prop :=
  f.Counts ∧ record.recordEnd < f.startPosition

instance (record : Record) (f : Field) : Decidable (record.StandsBehind f) :=
  inferInstanceAs (Decidable (f.Counts ∧ record.recordEnd < f.startPosition))

/-- A field that counts and fills nothing ends where it starts. -/
theorem end_eq_start_of_counts {entries : List Entry} {f : Field}
    (hf : f ∈ (ofEntries rules entries).fields) (hc : f.Counts) (hfill : ¬ f.Fills)
    (hle : f.startPosition ≤ f.endPosition) :
    f.endPosition = f.startPosition ∧ f.storageLength = 0 := by
  obtain ⟨hgroup, helementary⟩ := isMeasured_of_mem_ofEntries hf
  rcases hc with he | ⟨hg, -⟩
  · have hzero : f.storageLength = 0 :=
      Nat.eq_zero_of_not_pos fun hpos => hfill (.inl ⟨he, hpos⟩)
    have hend := helementary he
    rw [if_neg (by omega)] at hend
    exact ⟨hend, hzero⟩
  · have hshort : ¬ f.startPosition < f.endPosition := fun hlt => hfill (.inr ⟨hg, hlt⟩)
    exact ⟨by omega, hgroup (Field.isElementary_of_isGroup hg)⟩

/-- A field that counts ends before the position where the walk ends, or it has no bytes and starts
there or before. -/
theorem counted_end {entries : List Entry} {f : Field} (hf : f ∈ (ofEntries rules entries).fields)
    (hc : f.Counts) :
    (Walk.start rules).cursor ≤ f.startPosition ∧ f.startPosition ≤ f.endPosition ∧
      (f.endPosition < (Walk.run rules entries).cursor ∨
        f.endPosition = f.startPosition ∧ f.storageLength = 0 ∧
          f.startPosition ≤ (Walk.run rules entries).cursor) := by
  have htight := Walk.tight_run rules entries
  have hcursor := Walk.frontier_of_overlays_nil (Walk.groups_run rules entries).2
  obtain ⟨k, hk⟩ := List.mem_iff_getElem?.1 hf
  obtain ⟨i, slot, hi, -, hsame⟩ := exists_slot_of_getElem?_ofWalk hk
  have hs := List.mem_of_getElem? hi
  have hfirst := htight.bounded.first_le_start slot hs
  have hstart := htight.passed.start_le slot hs
  have hle := Walk.start_le_end_run rules entries slot hs
  rw [hsame.start_eq] at hfirst hstart hle
  rw [hsame.end_eq] at hle
  refine ⟨hfirst, hle, ?_⟩
  by_cases hfill : f.Fills
  · have hlt := lt_behindBytes (Walk.start rules).cursor (Walk.field_mem_fields hs)
      (hsame.fills.2 hfill)
    rw [← htight.frontier_eq, hcursor, hsame.end_eq] at hlt
    exact .inl hlt
  · obtain ⟨heq, hzero⟩ := end_eq_start_of_counts hf hc hfill hle
    exact .inr ⟨heq, hzero, hcursor ▸ hstart⟩

/-- The walk ends one position behind the last end of a field, or before. -/
theorem cursor_le_totalLength (hi : rules.config.fieldProcessing.includeFillers = true)
    (hx : rules.config.fieldProcessing.excludeFieldNames = []) {entries : List Entry}
    (he : ∃ f ∈ (ofEntries rules entries).fields, f.Counts) :
    (Walk.run rules entries).cursor ≤
      Layout.totalLength (ofEntries rules entries).fields + 1 := by
  obtain ⟨f, hf, hc⟩ := he
  obtain ⟨hfirst, hle, -⟩ := counted_end hf hc
  have hlast := Layout.le_totalLength hf hc
  have hdrops : DropsWithin rules (Walk.run rules entries).fields
      (Layout.totalLength (ofEntries rules entries).fields) := by
    intro g _ hd
    rw [isDropped_eq_false hi hx] at hd
    cases hd
  have hdeclared := totalLength_le_ofEntries hdrops
  have hreach := (Walk.bounded_run rules entries).cursor_le
  simp only [Walk.reach] at hreach
  omega

/-- The record ends right before the position where the walk does. -/
theorem recordEnd_succ (hs : 1 ≤ rules.startPosition) (entries : List Entry) :
    (ofEntries rules entries).recordEnd + 1 = (Walk.run rules entries).cursor := by
  have hfirst := (Walk.bounded_run rules entries).first_le
  have hpos : 1 ≤ (Walk.start rules).cursor := Nat.le_trans hs (Nat.le_add_right _ _)
  exact Nat.sub_add_cancel (Nat.le_trans hpos hfirst)

/-- A field behind the last byte has no bytes and stands right behind. -/
theorem StandsBehind.bounds (hs : 1 ≤ rules.startPosition) {entries : List Entry} {f : Field}
    (hf : f ∈ (ofEntries rules entries).fields) (h : (ofEntries rules entries).StandsBehind f) :
    f.startPosition = (ofEntries rules entries).recordEnd + 1 ∧
      f.endPosition = f.startPosition ∧ f.storageLength = 0 := by
  obtain ⟨hc, hlt⟩ := h
  have hend := recordEnd_succ hs entries
  obtain ⟨-, hle, hbefore | ⟨heq, hzero, hstart⟩⟩ := counted_end hf hc
  · omega
  · exact ⟨by omega, heq, hzero⟩

/-- The length of a layout that keeps all fields is the last byte of the record, unless an item or a
repeated group without bytes stands right behind that byte; then it is one more. -/
theorem totalLength_eq (hi : rules.config.fieldProcessing.includeFillers = true)
    (hx : rules.config.fieldProcessing.excludeFieldNames = []) (hs : 1 ≤ rules.startPosition)
    {lines : List Line} (he : ∃ f ∈ (ofLines rules lines).fields, f.isElementary = true)
    (a : Layout.Assembler) (label : String) :
    let record := ofLines rules lines
    (a.assemble label record.fields).1.statistics.totalLength =
        (if ∃ f ∈ record.fields, record.StandsBehind f then record.recordEnd + 1
          else record.recordEnd) ∧
      ∀ f ∈ record.fields, record.StandsBehind f →
        f.startPosition = record.recordEnd + 1 ∧ f.endPosition = f.startPosition ∧
          f.storageLength = 0 := by
  intro record
  obtain ⟨e, hm, hk⟩ := he
  have hlower := cursor_le_totalLength hi hx ⟨e, hm, .inl hk⟩
  have hend : record.recordEnd + 1 =
      (Walk.run rules (Entry.ofLines rules.strategy.columns? lines)).cursor := recordEnd_succ hs _
  rw [← hend] at hlower
  have hbehind : ∀ f ∈ record.fields, record.StandsBehind f →
      f.startPosition = record.recordEnd + 1 ∧ f.endPosition = f.startPosition ∧
        f.storageLength = 0 := fun f hf h => h.bounds hs hf
  -- What the cursor reaches is a bound from below, and no end is further than that.
  have hupper : ∀ g ∈ record.fields, g.Counts →
      g.endPosition ≤ record.recordEnd ∨ g.endPosition = g.startPosition ∧
        g.startPosition ≤ record.recordEnd + 1 := by
    intro g hg hc
    obtain ⟨-, -, h | ⟨h, -, hstart⟩⟩ := counted_end hg hc
    · exact .inl (by omega)
    · exact .inr ⟨h, by omega⟩
  refine ⟨?_, hbehind⟩
  show Layout.totalLength record.fields = _
  split
  · rename_i h
    obtain ⟨f, hf, hsb⟩ := h
    obtain ⟨hstart, heq, -⟩ := hbehind f hf hsb
    have hle := Layout.le_totalLength hf hsb.1
    refine Nat.le_antisymm (Layout.totalLength_le fun g hg hc => ?_) (by omega)
    rcases hupper g hg hc with h | h <;> omega
  · rename_i h
    refine Nat.le_antisymm (Layout.totalLength_le fun g hg hc => ?_)
      (Nat.le_of_succ_le_succ hlower)
    have hstart : g.startPosition ≤ record.recordEnd :=
      Nat.le_of_not_lt fun hlt => h ⟨g, hg, hc, hlt⟩
    rcases hupper g hg hc with h | h <;> omega

end

/-- A group that occurs is followed by an item without bytes and an item with two, so that nothing
stands behind the last byte. -/
theorem totalLength_eq_repeated_group :
    let lines := (Source.ofLines (["01 A.", "   05 B OCCURS 2.", "      10 C PIC X(3).",
      "   05 D PIC V.", "   05 E PIC X(2)."].map String.toList)).content
    ∃ rules : Rules,
      Rules.interpretWith .plain { fieldProcessing := { includeFillers := true } } = .ok rules ∧
      (ofLines rules lines).recordEnd = 8 ∧
      (({} : Layout.Assembler).assemble "DATA"
        (ofLines rules lines).fields).1.statistics.totalLength = 8 := by
  intro lines
  have hfacts : (∃ f ∈ (ofLines Rules.keepingFillers lines).fields, f.isElementary = true) ∧
      (¬ ∃ f ∈ (ofLines Rules.keepingFillers lines).fields,
        (ofLines Rules.keepingFillers lines).StandsBehind f) ∧
      (ofLines Rules.keepingFillers lines).recordEnd = 8 := by decide +kernel
  obtain ⟨he, hnone, hend⟩ := hfacts
  have hlength := (totalLength_eq rfl rfl (Nat.le_refl 1) he {} "DATA").1
  rw [if_neg hnone] at hlength
  exact ⟨Rules.keepingFillers, Rules.interpret_keepingFillers, hend, hlength.trans hend⟩

/-- An item without bytes at the end of a record makes the layout one longer than the record. -/
theorem totalLength_ne_recordEnd :
    let lines := (Source.ofLines (["01 A.", "   05 B PIC X(4).",
      "   05 C PIC V."].map String.toList)).content
    ∃ rules : Rules,
      Rules.interpretWith .plain { fieldProcessing := { includeFillers := true } } = .ok rules ∧
      rules.config.fieldProcessing.includeFillers = true ∧
      rules.config.fieldProcessing.excludeFieldNames = [] ∧ 1 ≤ rules.startPosition ∧
      (∃ f ∈ (ofLines rules lines).fields, f.isElementary = true) ∧
      (ofLines rules lines).reports .recordTooLarge = false ∧
      (({} : Layout.Assembler).assemble "DATA"
        (ofLines rules lines).fields).1.statistics.totalLength ≠
          (ofLines rules lines).recordEnd := by
  intro lines
  have hfacts : (∃ f ∈ (ofLines Rules.keepingFillers lines).fields, f.isElementary = true) ∧
      (ofLines Rules.keepingFillers lines).reports .recordTooLarge = false ∧
      (({} : Layout.Assembler).assemble "DATA"
        (ofLines Rules.keepingFillers lines).fields).1.statistics.totalLength ≠
          (ofLines Rules.keepingFillers lines).recordEnd := by decide +kernel
  exact ⟨Rules.keepingFillers, Rules.interpret_keepingFillers, rfl, rfl, Nat.le_refl 1, hfacts⟩

end Record

end DataDivision
