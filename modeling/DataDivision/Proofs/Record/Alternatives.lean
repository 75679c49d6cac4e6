import DataDivision.Proofs.Layout.Sweep
import DataDivision.Proofs.Record.Extent
import DataDivision.Proofs.Record.TreeLayout

/-!
Layouts of one storage.

Two elementary items of a contiguous forest have no byte in common unless they, or groups around
them, are different layouts of one storage (`Laid.isApart`).  The overlays of the fields say the
same, whichever fields are dropped, so no overlap is found.
-/

namespace DataDivision.Record

/-- Two fields, or groups around them, are different layouts of one storage. -/
def Alternatives (fields : List Field) (i j : Nat) : Prop :=
  ∃ a ∈ chain (parentOf fields) i, ∃ b ∈ chain (parentOf fields) j,
    a ≠ b ∧ baseOf fields a = baseOf fields b

theorem Alternatives.mono {slots slots' : List Slot} (h : LinksKept slots slots') {i j : Nat}
    (hi : i < slots.length) (hj : j < slots.length)
    (ha : Alternatives (slots.map (·.field)) i j) :
    Alternatives (slots'.map (·.field)) i j := by
  obtain ⟨a, ha, b, hb, hne, hbase⟩ := ha
  refine ⟨a, by rwa [h.chain_eq hi], b, by rwa [h.chain_eq hj], hne, ?_⟩
  rw [h.baseOf_eq (Nat.lt_of_le_of_lt (mem_chain_le ha) hi),
    h.baseOf_eq (Nat.lt_of_le_of_lt (mem_chain_le hb) hj), hbase]

/-- Two items have no byte in common, or they are layouts of one storage. -/
def Tolerates (fields : List Field) (i j : Nat) (slot slot' : Slot) : Prop :=
  slot.limit ≤ slot'.field.startPosition ∨ slot'.limit ≤ slot.field.startPosition ∨
    Alternatives fields i j

/-! ## Overlays of fields -/

/-- A field takes part in its storage if another field does. -/
theorem slotOf?_eq {fields : List Field} {a b : Nat} (hne : a ≠ b)
    (h : baseOf fields a = baseOf fields b) :
    slotOf? fields (basesOf fields) a = some ⟨baseOf fields a, a⟩ := by
  have hor : baseOf fields a ≠ a ∨ (basesOf fields).contains a = true := by
    by_cases hb : baseOf fields a = a
    · right
      cases ht : targetOf fields b with
      | none => exact absurd (hb.symm.trans (h.trans (baseOf_of_target_none ht))) hne
      | some t =>
        have hlt : b < fields.length := by
          refine Nat.lt_of_not_le fun hle => ?_
          simp [targetOf, List.getElem?_eq_none hle] at ht
        rw [List.contains_iff_mem, basesOf, List.mem_filterMap]
        exact ⟨b, List.mem_range.2 hlt, by rw [ht, ← h, hb]; rfl⟩
    · exact .inl hb
  simp only [slotOf?, hor, ↓reduceIte]

/-- The overlays of two fields say when they are layouts of one storage. -/
theorem sharesStorageWith_of_alternatives {fields : List Field} {i j : Nat} {f g : Field}
    (hi : (assignOverlays fields)[i]? = some f) (hj : (assignOverlays fields)[j]? = some g)
    (h : Alternatives fields i j) : f.sharesStorageWith g = true := by
  have hoverlays : ∀ {k : Nat} {e : Field}, (assignOverlays fields)[k]? = some e →
      e.overlays = overlaysOf fields (basesOf fields) k := by
    intro k e hk
    rw [assignOverlays, List.getElem?_mapIdx] at hk
    obtain ⟨_, -, rfl⟩ := Option.map_eq_some_iff.1 hk
    rfl
  obtain ⟨a, ha, b, hb, hne, hbase⟩ := h
  rw [Field.sharesStorageWith_iff, hoverlays hi, hoverlays hj]
  exact ⟨_, List.mem_filterMap.2 ⟨a, ha, slotOf?_eq hne hbase⟩,
    _, List.mem_filterMap.2 ⟨b, hb, slotOf?_eq hne.symm hbase.symm⟩, hbase, hne⟩

/-! ## Stages without overlaps -/

/-- An elementary item at an index from `lo` on. -/
def Stage.HasItem (σ : Stage) (lo i : Nat) (slot : Slot) : Prop :=
  lo ≤ i ∧ σ.slots[i]? = some slot ∧ slot.field.isElementary = true

/-- The siblings from the slot `lo` on, inside a group and not before the position `floor`, and the
items that they hold share bytes only as layouts of one storage. -/
structure Stage.IsApart (σ : Stage) (parent : Option Nat) (floor lo : Nat) : Prop where
  lo_le : lo ≤ σ.slots.length
  parent_lt : ∀ g ∈ parent, g < lo
  floor_le : floor ≤ σ.cursor
  index_lt : ∀ s ∈ σ.siblings, s.index < σ.slots.length
  base_eq : ∀ s ∈ σ.siblings, baseOf σ.fields s.index = s.base
  storage_lt : ∀ s ∈ σ.siblings, s.storage < σ.siblings.length
  base_of_storage : ∀ s ∈ σ.siblings, ∀ t ∈ σ.siblings, s.storage = t.storage → s.base = t.base
  floor_le_start : ∀ s ∈ σ.siblings, floor ≤ s.start
  stop_le : ∀ s ∈ σ.siblings, s.stop ≤ σ.cursor
  /-- Siblings of different storages stand one behind the other. -/
  separated : σ.siblings.Pairwise fun s t => s.base = t.base ∨ t.stop ≤ s.start
  rooted : ∀ i slot, σ.HasItem lo i slot → ∀ g ∈ parent, g ∈ chain (parentOf σ.fields) i
  /-- Every item belongs to a sibling and lies within it. -/
  covered : ∀ i slot, σ.HasItem lo i slot → ∃ s ∈ σ.siblings,
    s.index ∈ chain (parentOf σ.fields) i ∧ s.start ≤ slot.field.startPosition ∧
      slot.limit ≤ s.stop
  apart : ∀ i j slot slot', i < j → σ.HasItem lo i slot → σ.HasItem lo j slot' →
    Tolerates σ.fields i j slot slot'

namespace Stage

variable {σ : Stage} {parent : Option Nat} {floor lo width : Nat} {d : Declaration}

theorem HasItem.lt {i : Nat} {slot : Slot} (h : σ.HasItem lo i slot) : i < σ.slots.length :=
  (List.getElem?_eq_some_iff.1 h.2.1).1

/-- Condition names are no items. -/
theorem HasItem.of_skip {cs : List Slot} (hcs : ∀ c ∈ cs, c.field.isCondition = true) {i : Nat}
    {slot : Slot} (h : (σ.skip cs).HasItem lo i slot) : σ.HasItem lo i slot := by
  obtain ⟨hlo, hi, hk⟩ := h
  rw [skip, List.getElem?_append] at hi
  split at hi
  · exact ⟨hlo, hi, hk⟩
  · have hc := hcs slot (List.mem_of_getElem? hi)
    simp [Field.isElementary, Field.isCondition] at hk hc
    simp [hk] at hc

theorem IsApart.skip (h : σ.IsApart parent floor lo) {cs : List Slot}
    (hcs : ∀ c ∈ cs, c.field.isCondition = true) : (σ.skip cs).IsApart parent floor lo := by
  have hlinks : LinksKept σ.slots (σ.skip cs).slots := LinksKept.append _ _
  have hlen : σ.slots.length ≤ (σ.skip cs).slots.length := by simp [Stage.skip]
  refine ⟨Nat.le_trans h.lo_le hlen, h.parent_lt, h.floor_le,
    fun s hs => Nat.lt_of_lt_of_le (h.index_lt s hs) hlen, ?_, h.storage_lt, h.base_of_storage,
    h.floor_le_start, h.stop_le, h.separated, ?_, ?_, ?_⟩
  · intro s hs
    rw [← h.base_eq s hs]
    exact hlinks.baseOf_eq (h.index_lt s hs)
  · intro i slot hi g hg
    have hi := hi.of_skip hcs
    rw [fields, hlinks.chain_eq hi.lt]
    exact h.rooted i slot hi g hg
  · intro i slot hi
    have hi := hi.of_skip hcs
    rw [fields, hlinks.chain_eq hi.lt]
    exact h.covered i slot hi
  · intro i j slot slot' hij hi hj
    have hi := hi.of_skip hcs
    have hj := hj.of_skip hcs
    exact (h.apart i j slot slot' hij hi hj).imp_right
      (Or.imp_right (Alternatives.mono hlinks hi.lt hj.lt))

/-- Inside a group there is nothing at first. -/
theorem isApart_enter (σ : Stage) (d : Declaration) (slot : Slot) :
    (σ.enter d slot).IsApart (some σ.slots.length) (σ.start d) (σ.slots.length + 1) := by
  have hnone : ∀ i slot', ¬ (σ.enter d slot).HasItem (σ.slots.length + 1) i slot' := by
    intro i slot' h
    have hlt := h.lt
    have hlo := h.1
    simp [enter] at hlt
    omega
  refine ⟨by simp [enter], by simp, Nat.le_refl _, by simp [enter], by simp [enter],
    by simp [enter], by simp [enter], by simp [enter], by simp [enter], by simp [enter], ?_, ?_, ?_⟩
  · exact fun i slot' h => absurd h (hnone i slot')
  · exact fun i slot' h => absurd h (hnone i slot')
  · exact fun i j slot' _ _ h => absurd h (hnone i slot')

/-- What the slots of a stage become when a declaration is added: all new items are inside the
declaration. -/
structure Grows (σ : Stage) (lo : Nat) (parent : Option Nat) (d : Declaration) (width : Nat)
    (slots : List Slot) : Prop where
  links : LinksKept σ.slots slots
  length_lt : σ.slots.length < slots.length
  parent_eq : parentOf (slots.map (·.field)) σ.slots.length = parent
  target_eq : targetOf (slots.map (·.field)) σ.slots.length = (σ.redefined? d).map (·.index)
  old : ∀ i slot, (σ.join d width slots).HasItem lo i slot → i < σ.slots.length →
    σ.HasItem lo i slot
  inside : ∀ i slot, (σ.join d width slots).HasItem σ.slots.length i slot →
    σ.slots.length ∈ chain (parentOf (slots.map (·.field))) i ∧
      σ.start d ≤ slot.field.startPosition ∧ slot.limit ≤ σ.start d + width
  apart : ∀ i j slot slot', i < j → (σ.join d width slots).HasItem σ.slots.length i slot →
    (σ.join d width slots).HasItem σ.slots.length j slot' →
    Tolerates (slots.map (·.field)) i j slot slot'

/-- A declaration stands behind every sibling that lays out another storage. -/
theorem IsApart.separated_sibling (h : σ.IsApart parent floor lo)
    (hc : d.IsContiguous σ.storages) (width : Nat) {t : Sibling} (ht : t ∈ σ.siblings) :
    (σ.sibling d width).base = t.base ∨ t.stop ≤ σ.start d := by
  cases hr : σ.redefined? d with
  | none =>
    right
    have hstart : σ.start d = σ.cursor := by simp [start, hr]
    rw [hstart]
    exact h.stop_le t ht
  | some r =>
    have hbase : (σ.sibling d width).base = r.base := by simp [sibling, hr]
    have hstart : σ.start d = r.start := by simp [start, hr]
    rw [hbase, hstart]
    have hmem := Walk.mem_of_redefined? hr
    obtain ⟨name, hname, hf⟩ := Option.bind_eq_some_iff.1 hr
    obtain ⟨hsame, pre, post, hsplit, hpre⟩ := List.find?_eq_some_iff_append.1 hf
    have hsep := h.separated
    rw [hsplit] at hsep ht
    rcases List.mem_append.1 ht with ht | ht
    · -- Between the redefinition and its target all siblings lay out the storage of the target.
      left
      have hfind : σ.storages.find? (fun s => Text.sameIgnoringCase s.1 name) =
          some (r.name, r.storage) := by
        rw [storages, List.find?_map]
        exact congrArg _ hf
      have hwhile : (t.name, t.storage) ∈
          σ.storages.takeWhile fun s => !Text.sameIgnoringCase s.1 name := by
        rw [storages, hsplit, List.map_append, List.takeWhile_append_of_pos]
        · exact List.mem_append_left _ (List.mem_map_of_mem ht)
        · intro s hs
          obtain ⟨a, ha, rfl⟩ := List.mem_map.1 hs
          exact hpre a ha
      have hstorage : t.storage = r.storage := hc name hname _ hfind _ hwhile
      have ht : t ∈ σ.siblings := hsplit ▸ List.mem_append_left _ ht
      exact (h.base_of_storage t ht r hmem hstorage).symm
    · rcases List.mem_cons.1 ht with rfl | ht
      · exact .inl rfl
      · exact (List.pairwise_cons.1 (List.pairwise_append.1 hsep).2.1).1 t ht

/-- The storages of siblings tell their bases apart, also with the next sibling. -/
theorem IsApart.base_of_storage_sibling (h : σ.IsApart parent floor lo) {t : Sibling}
    (ht : t ∈ σ.siblings) (he : (σ.sibling d width).storage = t.storage) :
    (σ.sibling d width).base = t.base := by
  cases hr : σ.redefined? d with
  | none =>
    have hlt := h.storage_lt t ht
    simp [sibling, hr] at he
    omega
  | some r =>
    simp [sibling, hr] at he ⊢
    exact h.base_of_storage r (Walk.mem_of_redefined? hr) t ht he

theorem IsApart.floor_le_start_of (h : σ.IsApart parent floor lo) (d : Declaration) :
    floor ≤ σ.start d := by
  cases hr : σ.redefined? d with
  | none => simpa [start, hr] using h.floor_le
  | some r => simpa [start, hr] using h.floor_le_start r (Walk.mem_of_redefined? hr)

theorem IsApart.storage_sibling_lt (h : σ.IsApart parent floor lo) (d : Declaration)
    (width : Nat) : (σ.sibling d width).storage < σ.siblings.length + 1 := by
  cases hr : σ.redefined? d with
  | none => simp [sibling, hr]
  | some r =>
    have := h.storage_lt r (Walk.mem_of_redefined? hr)
    simp [sibling, hr]
    omega

/-- The base of a new sibling is that of the sibling it redefines, or its own. -/
theorem Grows.baseOf_eq {slots : List Slot} (hg : σ.Grows lo parent d width slots)
    (h : σ.IsApart parent floor lo) :
    baseOf (slots.map (·.field)) σ.slots.length = (σ.sibling d width).base := by
  cases hr : σ.redefined? d with
  | none =>
    rw [baseOf_of_target_none (by rw [hg.target_eq, hr]; rfl)]
    simp [sibling, hr]
  | some r =>
    have hmem := Walk.mem_of_redefined? hr
    have hb : (σ.sibling d width).base = r.base := by simp [sibling, hr]
    rw [baseOf_of_target_some (by rw [hg.target_eq, hr]; rfl) (h.index_lt r hmem),
      hg.links.baseOf_eq (h.index_lt r hmem), hb]
    exact h.base_eq r hmem

/-- An item is one of those before, or inside the new declaration. -/
theorem Grows.hasItem_cases {slots : List Slot} (hg : σ.Grows lo parent d width slots) {i : Nat}
    {slot : Slot} (hi : (σ.join d width slots).HasItem lo i slot) :
    σ.HasItem lo i slot ∨ (σ.join d width slots).HasItem σ.slots.length i slot := by
  by_cases hlt : i < σ.slots.length
  · exact .inl (hg.old i slot hi hlt)
  · exact .inr ⟨by omega, hi.2⟩

/-- An item of an older sibling tolerates every item inside the new declaration. -/
theorem Grows.tolerates {slots : List Slot} (hg : σ.Grows lo parent d width slots)
    (h : σ.IsApart parent floor lo) (hc : d.IsContiguous σ.storages) {i j : Nat}
    {slot slot' : Slot} (hi : σ.HasItem lo i slot)
    (hj : (σ.join d width slots).HasItem σ.slots.length j slot') :
    Tolerates (slots.map (·.field)) i j slot slot' := by
  obtain ⟨s, hs, hm, -, hle⟩ := h.covered i slot hi
  obtain ⟨hn, hstart, -⟩ := hg.inside j slot' hj
  rcases h.separated_sibling hc width hs with hb | hstop
  · have hlt := h.index_lt s hs
    refine .inr (.inr ⟨s.index, ?_, σ.slots.length, hn, by omega, ?_⟩)
    · rw [hg.links.chain_eq hi.lt]
      exact hm
    · rw [hg.links.baseOf_eq hlt, hg.baseOf_eq h, hb]
      exact h.base_eq s hs
  · exact .inl (by omega)

/-- A declaration whose items are apart keeps the siblings apart. -/
theorem IsApart.join {slots : List Slot} (h : σ.IsApart parent floor lo)
    (hc : d.IsContiguous σ.storages) (hg : σ.Grows lo parent d width slots) :
    (σ.join d width slots).IsApart parent floor lo := by
  have hlen := hg.length_lt
  constructor
  case lo_le => exact Nat.le_trans h.lo_le (Nat.le_of_lt hlen)
  case parent_lt => exact h.parent_lt
  case floor_le => exact Nat.le_trans h.floor_le (Nat.le_max_left _ _)
  case index_lt =>
    intro s hs
    rcases List.mem_cons.1 hs with rfl | hs
    · exact hlen
    · exact Nat.lt_trans (h.index_lt s hs) hlen
  case base_eq =>
    intro s hs
    rcases List.mem_cons.1 hs with rfl | hs
    · exact hg.baseOf_eq h
    · rw [← h.base_eq s hs]
      exact hg.links.baseOf_eq (h.index_lt s hs)
  case storage_lt =>
    intro s hs
    rcases List.mem_cons.1 hs with rfl | hs
    · exact h.storage_sibling_lt d width
    · exact Nat.lt_succ_of_lt (h.storage_lt s hs)
  case base_of_storage =>
    intro s hs t ht he
    rcases List.mem_cons.1 hs with rfl | hs <;> rcases List.mem_cons.1 ht with rfl | ht
    · rfl
    · exact h.base_of_storage_sibling ht he
    · exact (h.base_of_storage_sibling hs he.symm).symm
    · exact h.base_of_storage s hs t ht he
  case floor_le_start =>
    intro s hs
    rcases List.mem_cons.1 hs with rfl | hs
    · exact h.floor_le_start_of d
    · exact h.floor_le_start s hs
  case stop_le =>
    intro s hs
    rcases List.mem_cons.1 hs with rfl | hs
    · exact Nat.le_max_right _ _
    · exact Nat.le_trans (h.stop_le s hs) (Nat.le_max_left _ _)
  case separated =>
    exact List.pairwise_cons.2 ⟨fun t => h.separated_sibling hc width, h.separated⟩
  case rooted =>
    intro i slot hi g hgm
    rcases hg.hasItem_cases hi with hi | hi
    · rw [fields, Stage.join, hg.links.chain_eq hi.lt]
      exact h.rooted i slot hi g hgm
    · have hlt : g < σ.slots.length := Nat.lt_of_lt_of_le (h.parent_lt g hgm) h.lo_le
      exact mem_chain_trans (hg.inside i slot hi).1
        (mem_chain_of_next (hg.parent_eq.trans hgm) hlt (mem_chain_self _ _))
  case covered =>
    intro i slot hi
    rcases hg.hasItem_cases hi with hi | hi
    · obtain ⟨s, hs, hm, hle⟩ := h.covered i slot hi
      refine ⟨s, List.mem_cons_of_mem _ hs, ?_, hle⟩
      rw [fields, Stage.join, hg.links.chain_eq hi.lt]
      exact hm
    · exact ⟨_, List.mem_cons_self, hg.inside i slot hi⟩
  case apart =>
    intro i j slot slot' hij hi hj
    rcases hg.hasItem_cases hi with hi | hi <;> rcases hg.hasItem_cases hj with hj | hj
    · exact (h.apart i j slot slot' hij hi hj).imp_right
        (Or.imp_right (Alternatives.mono hg.links hi.lt hj.lt))
    · exact hg.tolerates h hc hi hj
    · have := hi.1
      have := hj.lt
      omega
    · exact hg.apart i j slot slot' hij hi hj

/-- An elementary item is one new item. -/
theorem grows_item {rules : Rules} {usage : Option String} {slot : Slot}
    (hd : slot.Declares d parent ((σ.redefined? d).map (·.index)) (σ.start d))
    (hp : slot.IsPlaced (σ.start d) (d.width rules usage)) :
    σ.Grows lo parent d (d.width rules usage) (σ.slots ++ [slot]) := by
  have hnew : ∀ i slot', (σ.join d (d.width rules usage) (σ.slots ++ [slot])).HasItem
      σ.slots.length i slot' → i = σ.slots.length ∧ slot' = slot := by
    intro i slot' hi
    have hlt := hi.lt
    have hle := hi.1
    obtain rfl : i = σ.slots.length := by
      simp [Stage.join] at hlt
      omega
    have hs := hi.2.1
    simp [Stage.join] at hs
    exact ⟨rfl, hs.symm⟩
  have hlast : (σ.slots ++ [slot])[σ.slots.length]? = some slot := by simp
  refine ⟨LinksKept.append _ _, by simp, ?_, ?_, ?_, ?_, ?_⟩
  · simp [parentOf, hd.parent_eq]
  · simp [targetOf, hd.target_eq]
  · intro i slot' hi hlt
    refine ⟨hi.1, ?_, hi.2.2⟩
    rw [← hi.2.1, Stage.join, List.getElem?_append_left hlt]
  · intro i slot' hi
    obtain ⟨rfl, rfl⟩ := hnew i slot' hi
    exact ⟨mem_chain_self _ _, Nat.le_of_eq hd.start_eq.symm, Nat.le_of_eq hp.limit_eq⟩
  · intro i j slot' slot'' hij hi hj
    obtain ⟨rfl, -⟩ := hnew i slot' hi
    obtain ⟨rfl, -⟩ := hnew j slot'' hj
    omega

/-- A group is no item, so the items from it on are those that it holds. -/
theorem hasItem_of_leave {inner : Stage} {slot : Slot}
    (hk : slot.field.kind = .group) (hopen : inner.slots[σ.slots.length]? = some slot) {i : Nat}
    {slot' : Slot} (h : (σ.leave d slot inner).HasItem σ.slots.length i slot') :
    inner.HasItem (σ.slots.length + 1) i slot' := by
  obtain ⟨hle, hi, he⟩ := h
  have hlt : σ.slots.length < inner.slots.length := (List.getElem?_eq_some_iff.1 hopen).1
  rw [leave, Stage.join] at hi
  by_cases hne : σ.slots.length = i
  · subst hne
    rw [List.getElem?_set_self hlt, Option.some.injEq] at hi
    subst hi
    simp [Slot.closed, Field.isElementary, Field.setExtent, hk] at he
  · rw [List.getElem?_set_ne hne] at hi
    exact ⟨by omega, hi, he⟩

/-- A group adds what it holds. -/
theorem grows_group {inner : Stage} {slot : Slot} {new : List Slot}
    (hk : d.descriptor.kind = .group)
    (hd : slot.Declares d parent ((σ.redefined? d).map (·.index)) (σ.start d))
    (hs : inner.slots = (σ.enter d slot).slots ++ new)
    (h : inner.IsApart (some σ.slots.length) (σ.start d) (σ.slots.length + 1)) :
    σ.Grows lo parent d (σ.groupWidth d inner) (σ.leave d slot inner).slots := by
  have hopen : inner.slots[σ.slots.length]? = some slot := by
    rw [hs, enter]
    simp
  have hlt : σ.slots.length < inner.slots.length := (List.getElem?_eq_some_iff.1 hopen).1
  have hinner : LinksKept inner.slots (σ.leave d slot inner).slots :=
    LinksKept.set_closed hopen _
  have hlinks : LinksKept σ.slots (σ.leave d slot inner).slots := by
    refine LinksKept.trans ?_ hinner
    rw [hs, enter, List.append_assoc]
    exact LinksKept.append _ _
  have hitem : ∀ {i slot'}, (σ.join d (σ.groupWidth d inner) (σ.leave d slot inner).slots).HasItem
      σ.slots.length i slot' → inner.HasItem (σ.slots.length + 1) i slot' :=
    fun hi => hasItem_of_leave (hd.kind_eq.trans hk) hopen hi
  constructor
  case links => exact hlinks
  case length_lt => simpa [leave, Stage.join] using hlt
  case parent_eq =>
    rw [hinner.parentOf_eq hlt]
    simp [parentOf, hopen, hd.parent_eq]
  case target_eq =>
    rw [hinner.targetOf_eq hlt]
    simp [targetOf, hopen, hd.target_eq]
  case old =>
    rintro i slot' ⟨hlo, hi, he⟩ hlt'
    have hi : (σ.leave d slot inner).slots[i]? = some slot' := hi
    rw [leave, Stage.join, List.getElem?_set_ne (by omega), hs, enter, List.append_assoc,
      List.getElem?_append_left hlt'] at hi
    exact ⟨hlo, hi, he⟩
  case inside =>
    intro i slot' hi
    have hi := hitem hi
    obtain ⟨s, hsib, -, hstart, hstop⟩ := h.covered i slot' hi
    have hfloor := h.floor_le_start s hsib
    have hcursor := h.stop_le s hsib
    have hwidth := σ.cursor_le_groupWidth d inner
    refine ⟨?_, by omega, by omega⟩
    rw [hinner.chain_eq hi.lt]
    exact h.rooted i slot' hi _ rfl
  case apart =>
    intro i j slot' slot'' hij hi hj
    have hi := hitem hi
    have hj := hitem hj
    exact (h.apart i j slot' slot'' hij hi hj).imp_right
      (Or.imp_right (Alternatives.mono hinner hi.lt hj.lt))

end Stage

/-- Laying out contiguous siblings keeps the items apart. -/
theorem Laid.isApart {rules : Rules} {usage : Option String} {parent : Option Nat}
    {σ σ' : Stage} {f : Forest} {floor lo : Nat} (h : Laid rules usage parent σ f σ')
    (hc : f.Contiguous σ.storages) (ha : σ.IsApart parent floor lo) :
    σ'.IsApart parent floor lo := by
  induction h generalizing floor lo with
  | nil => exact ha
  | skip cs hcs _ ih => exact ih hc (ha.skip hcs)
  | item slot _ hd hp _ ih =>
    obtain ⟨hd', hrest⟩ := hc
    refine ih ?_ (ha.join hd' (Stage.grows_item hd hp))
    rwa [Stage.storages_join]
  | group slot hk hd hheld _ ihh iho =>
    obtain ⟨hd', hitems, hrest⟩ := hc
    obtain ⟨new, hnew, -⟩ := hheld.extents_eq
    have hinner := ihh hitems (Stage.isApart_enter _ _ slot)
    refine iho ?_ (ha.join hd' (Stage.grows_group hk hd hnew hinner))
    rw [Stage.leave, Stage.storages_join]
    exact hrest

/-! ## Records -/

theorem clashes_unlinked (f g : Field) : f.unlinked.Clashes g.unlinked ↔ f.Clashes g := Iff.rfl

/-- Fields that do not clash before some are dropped do not clash afterwards. -/
theorem pairwise_prune {rules : Rules} {fields : List Field}
    (h : fields.Pairwise fun f g => ¬ f.Clashes g) :
    (prune rules fields).Pairwise fun f g => ¬ f.Clashes g := by
  have hunlinked : ∀ fs : List Field, (fs.map Field.unlinked).Pairwise (fun f g => ¬ f.Clashes g) ↔
      fs.Pairwise fun f g => ¬ f.Clashes g := by
    intro fs
    rw [List.pairwise_map]
    simp only [clashes_unlinked]
  rw [← hunlinked, map_unlinked_prune, hunlinked]
  exact h.sublist (keptFields_sublist rules fields)

/-- An item that meets another one reaches further than the start of that. -/
theorem Slot.IsMeasured.lt_limit_of_meets {slot slot' : Slot} (h : slot.IsMeasured)
    (hb : slot.field.HasBytes) (hm : slot.field.Meets slot'.field) :
    slot'.field.startPosition < slot.limit := by
  obtain ⟨p, -, hp, hq, -⟩ := hm
  have hend := h.end_eq hb.1
  have hlimit := h.limit_eq hb.1
  have := hb.2
  rw [if_pos hb.2] at hend
  omega

/-- Items that are apart do not clash once their overlays are assigned. -/
theorem pairwise_assignOverlays {σ : Stage} {parent : Option Nat} {floor : Nat}
    (h : σ.IsApart parent floor 0) (hm : ∀ slot ∈ σ.slots, slot.IsMeasured) :
    (assignOverlays σ.fields).Pairwise fun f g => ¬ f.Clashes g := by
  rw [List.pairwise_iff_getElem]
  intro i j hi hj hij hclash
  have hslot : ∀ k (hk : k < (assignOverlays σ.fields).length), ∃ slot,
      σ.slots[k]? = some slot ∧ (assignOverlays σ.fields)[k] =
        { slot.field with overlays := overlaysOf σ.fields (basesOf σ.fields) k } := by
    intro k hk
    simp only [assignOverlays, Stage.fields, List.length_mapIdx, List.length_map] at hk
    refine ⟨σ.slots[k], List.getElem?_eq_getElem hk, ?_⟩
    simp [assignOverlays, Stage.fields]
  obtain ⟨slot, hs, hf⟩ := hslot i hi
  obtain ⟨slot', hs', hg⟩ := hslot j hj
  have hshare := hclash.2.2.2
  rw [hf, hg] at hclash
  have hbi : slot.field.HasBytes := hclash.1
  have hbj : slot'.field.HasBytes := hclash.2.1
  have hmeet : slot.field.Meets slot'.field := hclash.2.2.1
  have hlt := (hm slot (List.mem_of_getElem? hs)).lt_limit_of_meets hbi hmeet
  have hlt' := (hm slot' (List.mem_of_getElem? hs')).lt_limit_of_meets hbj hmeet.symm
  rcases h.apart i j slot slot' hij ⟨Nat.zero_le _, hs, hbi.1⟩ ⟨Nat.zero_le _, hs', hbj.1⟩ with
    hle | hle | ha
  · omega
  · omega
  · have := sharesStorageWith_of_alternatives (List.getElem?_eq_getElem hi)
      (List.getElem?_eq_getElem hj) ha
    rw [hshare] at this
    cases this

/-- A record of a contiguous forest has no overlaps, whichever fields are dropped. -/
theorem find_eq_nil_of_forest {rules : Rules} {f : Forest} {level : Nat} {entries : List Entry}
    (hr : rules.config.fieldProcessing.processRedefines = true) (hf : f.WellFormed level [])
    (hc : f.Contiguous []) (he : entries.filterMap Entry.declaration? = f.toList)
    (hs : (ofEntries rules entries).reports .recordTooLarge = false) :
    Layout.Overlap.find (ofEntries rules entries).fields = [] := by
  rw [Layout.Overlap.find_eq_nil_iff fun g hg hb => ?_]
  · rw [reports_tooLarge] at hs
    obtain ⟨σ, hlaid, hslots, -⟩ := Walk.exists_laid_run hr he hf hs
    have hstart : (⟨[], rules.startPosition + rules.codeWidth, []⟩ : Stage).IsApart none 0 0 := by
      constructor <;> simp [Stage.HasItem]
    have ha := hlaid.isApart hc hstart
    have hfields : (Walk.run rules entries).fields = σ.fields := by
      rw [Walk.fields, hslots]
      rfl
    rw [ofEntries, ofWalk, hfields]
    exact pairwise_prune (pairwise_assignOverlays ha (hslots ▸ Walk.isMeasured_run rules entries))
  · have := end_eq_of_mem_ofEntries hg hb.1 hb.2
    have := hb.2
    omega

end DataDivision.Record
