import DataDivision.Layout.Basic
import DataDivision.Proofs.Record.Containment
import DataDivision.Proofs.Record.Frontier

/-!
Lengths of a record.

The cursor of a walk is never behind the last byte of an elementary item or a repeated group by more
than one position, unless it has not moved yet (`Walk.Bounded`).  So a group that starts at that
last byte or before ends there or before, and the shortest record is no longer than all declared
fields unless all records start behind those (`minLength_le`), though it may be longer than the
fields that stay.
-/

namespace DataDivision

/-- The end of the field counts towards the length of a record. -/
def Field.Counts (f : Field) : Prop :=
  f.isElementary = true ∨ f.isGroup = true ∧ f.occurs.isSome = true

instance (f : Field) : Decidable f.Counts :=
  inferInstanceAs (Decidable (f.isElementary = true ∨ f.isGroup = true ∧ f.occurs.isSome = true))

theorem Field.Counts.isCondition {f : Field} (h : f.Counts) : f.isCondition = false := by
  rcases h with h | ⟨h, -⟩
  · exact isCondition_of_isElementary h
  · exact isCondition_of_isGroup h

namespace Layout

theorem mem_counted {fields : List Field} {f : Field} :
    f ∈ fields.filter (fun f => f.isElementary || (f.isGroup && f.occurs.isSome)) ↔
      f ∈ fields ∧ f.Counts := by
  simp [Field.Counts]

theorem le_totalLength {fields : List Field} {f : Field} (hf : f ∈ fields) (hc : f.Counts) :
    f.endPosition ≤ totalLength fields := by
  rw [totalLength, List.foldl_max]
  have hm := List.mem_map_of_mem (mem_counted.2 ⟨hf, hc⟩) (f := (·.endPosition))
  exact Nat.le_trans (List.le_max?_getD_of_mem hm) (Nat.le_max_right _ _)

theorem totalLength_le {fields : List Field} {n : Nat}
    (h : ∀ f ∈ fields, f.Counts → f.endPosition ≤ n) : totalLength fields ≤ n := by
  rw [totalLength, List.foldl_max, Nat.max_le]
  refine ⟨Nat.zero_le n, ?_⟩
  cases hmax : ((fields.filter fun f => f.isElementary || (f.isGroup && f.occurs.isSome)).map
      (·.endPosition)).max? with
  | none => exact Nat.zero_le n
  | some b =>
    obtain ⟨f, hf, rfl⟩ := List.mem_map.1 (List.max?_mem hmax)
    obtain ⟨hm, hc⟩ := mem_counted.1 hf
    exact h f hm hc

/-- The roots of one of the given levels that have bytes, or an item with bytes inside. -/
def records (levels : List Nat) (fields : List Field) : List Field :=
  fields.filter fun f =>
    f.parent.isNone && !f.isCondition && levels.contains f.level && hasStorage fields f

theorem mem_records {levels : List Nat} {fields : List Field} {f : Field}
    (h : f ∈ records levels fields) :
    f ∈ fields ∧ f.isCondition = false ∧ hasStorage fields f = true := by
  obtain ⟨hm, hp⟩ := List.mem_filter.1 h
  simp only [Bool.and_eq_true, Bool.not_eq_true'] at hp
  exact ⟨hm, hp.1.1.2, hp.2⟩

/-- Not all records start behind the given position. -/
def StartsWithin (levels : List Nat) (fields : List Field) (last : Nat) : Prop :=
  records levels fields = [] ∨ ∃ f ∈ records levels fields, f.startPosition ≤ last

instance (levels : List Nat) (fields : List Field) (last : Nat) :
    Decidable (StartsWithin levels fields last) :=
  inferInstanceAs (Decidable (_ ∨ _))

end Layout

namespace Record

namespace Walk

/-! ## How far a walk gets -/

/-- The position behind the last byte, or the first position if that is further. -/
def reach (first : Nat) (w : Walk) : Nat := max first (Layout.totalLength w.fields + 1)

/-- No position in the walk is behind its last byte by more than one. -/
structure Bounded (first : Nat) (w : Walk) : Prop where
  first_le : first ≤ w.cursor
  cursor_le : w.cursor ≤ w.reach first
  first_le_start : ∀ slot ∈ w.slots, first ≤ slot.field.startPosition
  start_le : ∀ slot ∈ w.slots, slot.field.startPosition ≤ w.reach first
  limit_le : ∀ slot ∈ w.slots, slot.limit ≤ w.reach first
  resume_le : ∀ overlay ∈ w.overlays, overlay.resume ≤ w.reach first
  shared_le : ∀ stretch ∈ w.shared, stretch.2 ≤ w.reach first
  /-- An open group has no bytes yet. -/
  open_end : ∀ group ∈ w.groups, ∀ slot : Slot, w.slots[group.index]? = some slot →
    slot.field.endPosition = slot.field.startPosition

theorem reach_le {first : Nat} {w u : Walk}
    (h : ∀ f ∈ w.fields, f.Counts → ∃ f' ∈ u.fields, f'.Counts ∧ f.endPosition ≤ f'.endPosition) :
    w.reach first ≤ u.reach first := by
  have hle : Layout.totalLength w.fields ≤ Layout.totalLength u.fields := by
    refine Layout.totalLength_le fun f hf hc => ?_
    obtain ⟨f', hf', hc', he⟩ := h f hf hc
    exact Nat.le_trans he (Layout.le_totalLength hf' hc')
  simp only [reach]
  omega

theorem lt_reach (first : Nat) {w : Walk} {f : Field} (hf : f ∈ w.fields) (hc : f.Counts) :
    f.endPosition < w.reach first := by
  have := Layout.le_totalLength hf hc
  simp only [reach]
  omega

theorem reach_snoc (first : Nat) {w u : Walk} {slot : Slot} (hs : u.slots = w.slots ++ [slot]) :
    w.reach first ≤ u.reach first := by
  refine reach_le fun f hf hc => ⟨f, ?_, hc, Nat.le_refl _⟩
  rw [fields_snoc hs]
  exact List.mem_append_left _ hf

theorem field_mem_fields {w : Walk} {slot : Slot} (h : slot ∈ w.slots) : slot.field ∈ w.fields :=
  List.mem_map_of_mem h

namespace Bounded

variable {first : Nat} {w u v : Walk}

theorem start (rules : Rules) : (Walk.start rules).Bounded (Walk.start rules).cursor := by
  refine ⟨Nat.le_refl _, Nat.le_max_left _ _, ?_, ?_, ?_, ?_, ?_, ?_⟩ <;> simp [Walk.start]

theorem report (h : w.Bounded first) (d : Diagnostic) : (w.report d).Bounded first :=
  ⟨h.first_le, h.cursor_le, h.first_le_start, h.start_le, h.limit_le, h.resume_le, h.shared_le,
    h.open_end⟩

/-- A group that closes gets its end, and the other fields keep theirs. -/
theorem reach_closes {group : OpenGroup} {slot : Slot} {next : Nat} (h : w.Bounded first)
    (hc : Closes w u group slot next) : w.reach first ≤ u.reach first := by
  have hopen := h.open_end group (hc.groups_eq ▸ List.mem_cons_self) slot hc.slot_eq
  refine reach_le fun f hf hcount => ?_
  obtain ⟨i, hi⟩ := List.mem_iff_getElem?.1 hf
  obtain ⟨s, hs, rfl⟩ := getElem?_fields.1 hi
  rcases hc.kept hs with ⟨rfl, hu⟩ | hu
  · refine ⟨_, field_mem_fields (List.mem_of_getElem? hu), hcount, ?_⟩
    rw [hopen]
    simp only [Slot.closed, Field.setExtent]
    split <;> omega
  · exact ⟨_, field_mem_fields (List.mem_of_getElem? hu), hcount, Nat.le_refl _⟩

/-- A group closes at the cursor, or it occurs several times and its own end counts. -/
theorem next_le_reach {group : OpenGroup} {slot : Slot} {next : Nat} (h : w.Bounded first)
    (hc : Closes w u group slot next) : next ≤ u.reach first := by
  have hmono := h.reach_closes hc
  cases ho : slot.field.occurs with
  | none =>
    have hle := hc.next_le
    rw [behindGroup_of_occurs_none ho hc.start_le] at hle
    exact Nat.le_trans hle (Nat.le_trans h.cursor_le hmono)
  | some n =>
    have hcount : (slot.closed next).field.Counts :=
      .inr ⟨hc.isGroup, by simp [Slot.closed, Field.setExtent, ho]⟩
    have hlt := lt_reach first (field_mem_fields (List.mem_of_getElem? hc.getElem?_index)) hcount
    have hstart := Nat.le_trans (h.start_le slot (List.mem_of_getElem? hc.slot_eq)) hmono
    simp only [Slot.closed, Field.setExtent] at hlt
    split at hlt <;> omega

theorem closes {group : OpenGroup} {slot : Slot} {next : Nat} (h : w.Bounded first)
    (hn : w.Nested) (hc : Closes w u group slot next) : u.Bounded first := by
  have hslot : slot ∈ w.slots := List.mem_of_getElem? hc.slot_eq
  have hmem : ∀ s ∈ u.slots, s = slot.closed next ∨ s ∈ w.slots := by
    intro s hs
    rw [hc.slots_eq] at hs
    exact (List.mem_or_eq_of_mem_set hs).symm
  have hmono := h.reach_closes hc
  have hnext := h.next_le_reach hc
  refine ⟨?_, ?_, ?_, ?_, ?_, ?_, ?_, ?_⟩
  · exact hc.cursor_eq ▸ Nat.le_trans h.first_le (Nat.le_max_left _ _)
  · exact hc.cursor_eq ▸ Nat.max_le.2 ⟨Nat.le_trans h.cursor_le hmono, hnext⟩
  · intro s hs
    rcases hmem s hs with rfl | hs
    · exact h.first_le_start slot hslot
    · exact h.first_le_start s hs
  · intro s hs
    rcases hmem s hs with rfl | hs
    · exact Nat.le_trans (h.start_le slot hslot) hmono
    · exact Nat.le_trans (h.start_le s hs) hmono
  · intro s hs
    rcases hmem s hs with rfl | hs
    · exact hnext
    · exact Nat.le_trans (h.limit_le s hs) hmono
  · exact fun o ho => Nat.le_trans (h.resume_le o (hc.overlays_eq ▸ ho)) hmono
  · exact fun s hs => Nat.le_trans (h.shared_le s (hc.shared_eq ▸ hs)) hmono
  · intro g hg s hs
    have hg' : g ∈ w.groups := hc.groups_eq ▸ List.mem_cons_of_mem _ hg
    rcases hc.getElem?_slots hs with ⟨hidx, -⟩ | ⟨-, hs⟩
    · have := hc.index_lt hn hg
      omega
    · exact h.open_end g hg' s hs

theorem closeOverlay {overlay : OpenOverlay} {outer : List OpenOverlay} (h : w.Bounded first)
    (ho : w.overlays = overlay :: outer) : (w.closeOverlay overlay outer).Bounded first := by
  have hresume := h.resume_le overlay (ho ▸ List.mem_cons_self)
  have hnext : max w.cursor overlay.resume ≤ w.reach first := Nat.max_le.2 ⟨h.cursor_le, hresume⟩
  refine ⟨Nat.le_trans h.first_le (Nat.le_max_left _ _), hnext, h.first_le_start, h.start_le,
    h.limit_le, ?_, ?_, h.open_end⟩
  · exact fun o hm => h.resume_le o (ho ▸ List.mem_cons_of_mem _ hm)
  · intro s hs
    rcases List.mem_cons.1 hs with rfl | hs
    · exact hnext
    · exact h.shared_le s hs

/-- A slot at the end starts and ends within reach. -/
theorem snoc {slot : Slot} (h : w.Bounded first) (hn : w.Nested) (hs : u.slots = w.slots ++ [slot])
    (hc : first ≤ u.cursor ∧ u.cursor ≤ u.reach first)
    (hstart : first ≤ slot.field.startPosition ∧ slot.field.startPosition ≤ w.reach first)
    (hlimit : slot.limit ≤ u.reach first)
    (ho : ∀ overlay ∈ u.overlays, overlay.resume ≤ w.reach first) (hsh : u.shared = w.shared)
    (hg : u.groups = w.groups ∨ ∃ group, group.index = w.slots.length ∧
      u.groups = group :: w.groups ∧ slot.field.endPosition = slot.field.startPosition) :
    u.Bounded first := by
  have hmono : w.reach first ≤ u.reach first := reach_snoc first hs
  have hmem : ∀ s ∈ u.slots, s ∈ w.slots ∨ s = slot := by
    intro s hm
    rw [hs, List.mem_append, List.mem_singleton] at hm
    exact hm
  have hopen : ∀ group ∈ w.groups, ∀ s : Slot, u.slots[group.index]? = some s →
      s.field.endPosition = s.field.startPosition := by
    intro group hm s hi
    have hlt := hn.index_lt hm
    rcases getElem?_snoc (hs ▸ hi) with ⟨-, hi⟩ | ⟨he, -⟩
    · exact h.open_end group hm s hi
    · omega
  refine ⟨hc.1, hc.2, ?_, ?_, ?_, ?_, ?_, ?_⟩
  · intro s hm
    rcases hmem s hm with hm | rfl
    · exact h.first_le_start s hm
    · exact hstart.1
  · intro s hm
    rcases hmem s hm with hm | rfl
    · exact Nat.le_trans (h.start_le s hm) hmono
    · exact Nat.le_trans hstart.2 hmono
  · intro s hm
    rcases hmem s hm with hm | rfl
    · exact Nat.le_trans (h.limit_le s hm) hmono
    · exact hlimit
  · exact fun o hm => Nat.le_trans (ho o hm) hmono
  · exact fun s hm => Nat.le_trans (h.shared_le s (hsh ▸ hm)) hmono
  · rcases hg with hg | ⟨g, hidx, hg, he⟩
    · exact hg ▸ hopen
    · intro group hm s hi
      rcases List.mem_cons.1 (hg ▸ hm) with rfl | hm
      · rw [hidx, hs, List.getElem?_concat_length, Option.some.injEq] at hi
        exact hi ▸ he
      · exact hopen group hm s hi

theorem condition (h : w.Bounded first) (hn : w.Nested) (d : Entry.Descriptor) (line i : Nat)
    {slot : Slot} (span : Span) (hi : slot ∈ w.slots) :
    (w.push (conditionOf d line i slot) span).Bounded first := by
  have hmono := reach_snoc first (slots_push w (conditionOf d line i slot) span)
  have hcursor := Nat.le_trans h.cursor_le hmono
  exact h.snoc hn (slots_push w _ span) ⟨h.first_le, hcursor⟩
    ⟨h.first_le_start slot hi, h.start_le slot hi⟩ hcursor h.resume_le rfl (.inl rfl)

theorem places {y : Declaration} {target : Option Nat} {slot : Slot} (h : w.Bounded first)
    (hn : w.Nested) (hk : y.descriptor.kind ≠ .condition) (hp : Places w u y target v slot) :
    u.Bounded first := by
  have hmono := reach_snoc first hp.slots_eq
  have hv : first ≤ v.cursor ∧ v.cursor ≤ w.reach first ∧
      ∀ overlay ∈ v.overlays, overlay.resume ≤ w.reach first := by
    cases hp.rewinds with
    | stay => exact ⟨h.first_le, h.cursor_le, h.resume_le⟩
    | back _ _ target_eq base_eq =>
      have htarget := List.mem_of_getElem? target_eq
      have hbase := List.mem_of_getElem? base_eq
      refine ⟨h.first_le_start _ hbase, h.start_le _ hbase, fun o hm => ?_⟩
      rcases List.mem_cons.1 hm with rfl | hm
      · simp only [Nat.max_le]
        exact ⟨⟨⟨shared_lookup_le h.shared_le _, h.limit_le _ htarget⟩, h.limit_le _ hbase⟩,
          h.cursor_le⟩
      · exact h.resume_le o hm
  obtain ⟨hfirst, hcursor, hresume⟩ := hv
  have hslot : slot ∈ u.slots := hp.slots_eq ▸ List.mem_append_right _ (List.mem_singleton_self _)
  have hlimit : u.cursor ≤ u.reach first := by
    cases hd : y.descriptor.kind with
    | condition => exact absurd hd hk
    | group =>
      rw [(hp.of_group hd).2.2.1]
      exact Nat.le_trans hcursor hmono
    | elementary =>
      have he : slot.field.isElementary = true := by simp [Field.isElementary, hp.kind_eq, hd]
      have hlt := lt_reach first (field_mem_fields hslot) (.inl he)
      have hmeasured := hp.measured.limit_eq he
      have hend := hp.measured.end_eq he
      rw [hp.start_eq] at hmeasured hend
      rw [← hp.limit_eq, hmeasured]
      split at hend <;> omega
  refine h.snoc hn hp.slots_eq ⟨Nat.le_trans hfirst hp.le_cursor, hlimit⟩
    (hp.start_eq ▸ ⟨hfirst, hcursor⟩) (hp.limit_eq ▸ hlimit) (hp.overlays_eq ▸ hresume)
    hp.shared_eq ?_
  cases hd : y.descriptor.kind with
  | condition => exact absurd hd hk
  | elementary => exact .inl (hp.of_elementary hd).1
  | group =>
    obtain ⟨hgroups, -, -, hend⟩ := hp.of_group hd
    exact .inr ⟨_, rfl, hgroups, hend.trans hp.start_eq.symm⟩

end Bounded

theorem bounded_run (rules : Rules) (entries : List Entry) :
    (run rules entries).Bounded (start rules).cursor := by
  refine (run_linked_steps (P := fun w => w.Bounded (start rules).cursor) (Bounded.start rules)
    ?_ ?_ ?_ ?_ ?_ entries).2
  · exact fun w u group slot next hn _ hc h => h.closes hn hc
  · exact fun w overlay outer ho h => h.closeOverlay ho
  · exact fun w d h => h.report d
  · exact fun w d line span i slot _ hn _ hi h =>
      h.condition hn d line i span (List.mem_of_getElem? hi)
  · exact fun w u x target v slot hn _ hk _ hp h => h.places hn hk hp

end Walk

/-! ## Lengths -/

/-- A field that has bytes, or holds an item with bytes, starts where such an item does or before.
-/
theorem exists_stored_of_hasStorage {fields : List Field} (ha : IsArena fields)
    (hg : IsGrounded fields) {depth i : Nat} {f : Field} (hi : fields[i]? = some f)
    (h : Layout.hasStorageWithin fields depth f = true) :
    ∃ d ∈ fields, d.isElementary = true ∧ 0 < d.storageLength ∧
      f.startPosition ≤ d.startPosition := by
  induction depth generalizing i f with
  | zero =>
    simp only [Layout.hasStorageWithin, Bool.and_eq_true, decide_eq_true_eq] at h
    exact ⟨f, List.mem_of_getElem? hi, h.1, h.2, Nat.le_refl _⟩
  | succ depth ih =>
    rw [Layout.hasStorageWithin] at h
    split at h
    · rename_i he
      exact ⟨f, List.mem_of_getElem? hi, he, by simpa using h, Nat.le_refl _⟩
    · obtain ⟨c, hc, hstored⟩ := List.any_eq_true.1 h
      obtain ⟨g, hgc, hparent⟩ := (ha.mem_children_iff i f hi c).1 hc
      rw [hgc, Option.any_some] at hstored
      obtain ⟨d, hd, he, hb, hle⟩ := ih hgc hstored
      exact ⟨d, hd, he, hb,
        Nat.le_trans (hg g (List.mem_of_getElem? hgc) i hparent f hi) hle⟩

variable {rules : Rules} {entries : List Entry}

theorem SameBytes.counts {f g : Field} (h : SameBytes f g) : f.Counts ↔ g.Counts := by
  simp only [Field.Counts, Field.isElementary, Field.isGroup, h.kind_eq, h.occurs_eq]

/-- The fields that stay reach no further than all that were declared. -/
theorem totalLength_ofEntries_le (rules : Rules) (entries : List Entry) :
    Layout.totalLength (ofEntries rules entries).fields ≤
      Layout.totalLength (Walk.run rules entries).fields := by
  refine Layout.totalLength_le fun f hf hc => ?_
  obtain ⟨k, hk⟩ := List.mem_iff_getElem?.1 hf
  obtain ⟨i, slot, hi, -, hsame⟩ := exists_slot_of_getElem?_ofWalk hk
  rw [← hsame.end_eq]
  exact Layout.le_totalLength (Walk.field_mem_fields (List.mem_of_getElem? hi)) (hsame.counts.2 hc)

/-- Nothing that the rules drop reaches behind the given position. -/
def DropsWithin (rules : Rules) (fields : List Field) (last : Nat) : Prop :=
  ∀ f ∈ fields, isDropped rules.config.fieldProcessing f = true → f.Counts → f.endPosition ≤ last

instance (rules : Rules) (fields : List Field) (last : Nat) :
    Decidable (DropsWithin rules fields last) :=
  inferInstanceAs (Decidable (∀ f ∈ fields, isDropped rules.config.fieldProcessing f = true →
    f.Counts → f.endPosition ≤ last))

/-- A data item that is not dropped keeps its bytes. -/
theorem exists_sameBytes_of_kept {w : Walk} (hl : w.Linked) {slot : Slot} (hs : slot ∈ w.slots)
    (hc : slot.field.isCondition = false)
    (hd : isDropped rules.config.fieldProcessing slot.field = false) :
    ∃ f ∈ (ofWalk rules w).fields, SameBytes slot.field f := by
  obtain ⟨i, hi⟩ := List.mem_iff_getElem?.1 hs
  have hhost : slot.field.host = none := by
    cases hh : slot.field.host with
    | none => rfl
    | some h =>
      rw [((hl.linksBack hi).host h hh).1] at hc
      cases hc
  have hget : (assignOverlays w.fields)[i]? = some { slot.field with
      overlays := overlaysOf w.fields (basesOf w.fields) i } := by
    rw [getElem?_assignOverlays, Walk.getElem?_fields.2 ⟨slot, hi, rfl⟩]
    rfl
  have hkept := ((numbering_numbersOf rules (assignOverlays w.fields)).isSome_iff i _ hget
    (by simp [hhost])).2 ⟨hd, by simp [hhost]⟩
  obtain ⟨k, hk⟩ := Option.isSome_iff_exists.1 hkept
  exact ⟨_, List.mem_of_getElem? (getElem?_prune.2 ⟨i, _, hget, hk, rfl⟩), rfl, rfl, rfl, rfl, rfl⟩

/-- If nothing that is dropped reaches behind the fields that stay, nothing declared does. -/
theorem totalLength_le_ofEntries
    (hd : DropsWithin rules (Walk.run rules entries).fields
      (Layout.totalLength (ofEntries rules entries).fields)) :
    Layout.totalLength (Walk.run rules entries).fields ≤
      Layout.totalLength (ofEntries rules entries).fields := by
  refine Layout.totalLength_le fun f hf hc => ?_
  cases hdrop : isDropped rules.config.fieldProcessing f with
  | true => exact hd f hf hdrop hc
  | false =>
    obtain ⟨slot, hs, rfl⟩ := List.mem_map.1 hf
    obtain ⟨g, hg, hsame⟩ := exists_sameBytes_of_kept (Walk.linked_run rules entries) hs
      hc.isCondition hdrop
    exact hsame.end_eq ▸ Layout.le_totalLength hg (hsame.counts.1 hc)

theorem isGrounded_ofEntries (hc : IsConfined (Walk.run rules entries).fields) :
    IsGrounded (ofEntries rules entries).fields := by
  intro f hf p hp g hg
  obtain ⟨k, hk⟩ := List.mem_iff_getElem?.1 hf
  have hp' : f.parent = some p := hp
  exact start_le_of_encloses hc (.parent (by simp [parentOf, hk, hp'])) hk hg

/-- Where every redefinition stays in the group around it, no record starts behind its bytes. -/
theorem startsWithin_of_isConfined (hc : IsConfined (Walk.run rules entries).fields)
    (levels : List Nat) :
    Layout.StartsWithin levels (ofEntries rules entries).fields
      (Layout.totalLength (Walk.run rules entries).fields) := by
  refine or_iff_not_imp_left.2 fun hne => ?_
  obtain ⟨f, hf⟩ := List.exists_mem_of_ne_nil _ hne
  obtain ⟨hm, -, hb⟩ := Layout.mem_records hf
  obtain ⟨k, hi⟩ := List.mem_iff_getElem?.1 hm
  have ha := isArena_ofEntries rules entries
  obtain ⟨d, hd, hel, hpos, hle⟩ := exists_stored_of_hasStorage ha (isGrounded_ofEntries hc) hi hb
  have hend := ha.end_eq d hd hel
  rw [if_pos hpos] at hend
  have hlength := Layout.le_totalLength hd (.inl hel)
  have htotal := totalLength_ofEntries_le rules entries
  exact ⟨f, hf, by omega⟩

/-- A data item that starts at the last byte of all declared fields or before ends there or before.
-/
theorem end_le_totalLength (hs : (ofEntries rules entries).reports .recordTooLarge = false)
    {f : Field} (hf : f ∈ (ofEntries rules entries).fields) (hk : f.isCondition = false)
    (hstart : f.startPosition ≤ Layout.totalLength (Walk.run rules entries).fields) :
    f.endPosition ≤ Layout.totalLength (Walk.run rules entries).fields := by
  by_cases hcount : f.Counts
  · exact Nat.le_trans (Layout.le_totalLength hf hcount) (totalLength_ofEntries_le rules entries)
  obtain ⟨k, hi⟩ := List.mem_iff_getElem?.1 hf
  obtain ⟨i, slot, hslot, -, hsame⟩ := exists_slot_of_getElem?_ofWalk hi
  have hgroup : slot.field.isGroup = true := by
    have hne : f.isElementary ≠ true := fun he => hcount (.inl he)
    rw [Field.isGroup, hsame.kind_eq]
    cases hkind : f.kind <;> simp_all [Field.isElementary, Field.isCondition]
  rw [reports_tooLarge] at hs
  have hend := (Walk.covering_run hs).end_eq i slot hslot hgroup
    (by simp [Walk.IsOpen, (Walk.groups_run rules entries).1])
  rw [hsame.end_eq, hsame.start_eq] at hend
  have hbound := Walk.bounded_run rules entries
  have hmem := List.mem_of_getElem? hslot
  have hlimit := hbound.limit_le slot hmem
  have hfirst := hbound.first_le_start slot hmem
  rw [hsame.start_eq] at hfirst
  simp only [Walk.reach] at hlimit
  -- A group without bytes of its own ends where it starts.
  split at hend <;> omega

/-- The shortest record is no longer than all declared fields, unless all records start behind
those. -/
theorem minLength_le (hs : (ofEntries rules entries).reports .recordTooLarge = false)
    {levels : List Nat} (hw : Layout.StartsWithin levels (ofEntries rules entries).fields
      (Layout.totalLength (Walk.run rules entries).fields)) :
    Layout.minLength levels (ofEntries rules entries).fields ≤
      Layout.totalLength (Walk.run rules entries).fields := by
  have hmin : Layout.minLength levels (ofEntries rules entries).fields =
      ((Layout.records levels (ofEntries rules entries).fields).map
        (·.endPosition)).min?.getD (Layout.totalLength (ofEntries rules entries).fields) := rfl
  rw [hmin]
  rcases hw with hnil | ⟨f, hf, hstart⟩
  · rw [hnil]
    exact totalLength_ofEntries_le rules entries
  · obtain ⟨hm, hk, -⟩ := Layout.mem_records hf
    exact Nat.le_trans (List.min?_getD_le_of_mem (List.mem_map_of_mem hf))
      (end_le_totalLength hs hm hk hstart)

end Record

end DataDivision
