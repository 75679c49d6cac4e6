import DataDivision.Proofs.Record.Arena
import DataDivision.Proofs.Record.Findings

/-!
Groups and the items inside them.

A group reaches at least as far as everything inside it, however redefinitions inside it move the
cursor (`Walk.Covering`).  It also starts where the first item inside it starts or before, unless a
redefinition goes back to storage before the group (`IsConfined`, `Walk.Grounding`).
-/

namespace DataDivision.Record

/-- No redefinition goes back before the start of the group around it. -/
def IsConfined (fields : List Field) : Prop :=
  ∀ f ∈ fields, f.redefinesTarget.isSome = true → ∀ p ∈ f.parent, ∀ g ∈ fields[p]?,
    g.startPosition ≤ f.startPosition

instance (fields : List Field) : Decidable (IsConfined fields) :=
  inferInstanceAs (Decidable (∀ f ∈ fields, f.redefinesTarget.isSome = true → ∀ p ∈ f.parent,
    ∀ g ∈ fields[p]?, g.startPosition ≤ f.startPosition))

/-- No field starts before the group around it. -/
def IsGrounded (fields : List Field) : Prop :=
  ∀ f ∈ fields, ∀ p ∈ f.parent, ∀ g ∈ fields[p]?, g.startPosition ≤ f.startPosition

/-- Some fields are the first ones of others as far as their groups, redefinitions and starts
tell. -/
def StartsKept (fields fields' : List Field) : Prop :=
  ∀ (i : Nat) (f : Field), fields[i]? = some f → ∃ f', fields'[i]? = some f' ∧
    f'.parent = f.parent ∧ f'.redefinesTarget = f.redefinesTarget ∧
    f'.startPosition = f.startPosition

theorem StartsKept.isConfined {fields fields' : List Field} (h : StartsKept fields fields')
    (hc : IsConfined fields') : IsConfined fields := by
  intro f hf hr p hp g hg
  obtain ⟨i, hi⟩ := List.mem_iff_getElem?.1 hf
  obtain ⟨f', hf', hp', hr', hs'⟩ := h i f hi
  obtain ⟨g', hg', -, -, hs⟩ := h p g hg
  rw [← hs, ← hs']
  exact hc f' (List.mem_of_getElem? hf') (hr' ▸ hr) p (hp'.trans hp) g' hg'

namespace Walk

/-! ## Positions that are left behind -/

/-- When the redefinitions deeper than `level` are closed, the cursor is at `x` or behind it. -/
def Reaches (w : Walk) (level x : Nat) : Prop :=
  x ≤ w.cursor ∨ ∃ overlay ∈ w.overlays, level < overlay.level ∧ x ≤ overlay.resume

variable {w u v : Walk} {level x : Nat}

theorem Reaches.of_le (h : w.Reaches level x) (hc : w.cursor ≤ u.cursor)
    (ho : u.overlays = w.overlays) : u.Reaches level x := by
  rcases h with h | ⟨overlay, hm, hl, hr⟩
  · exact .inl (Nat.le_trans h hc)
  · exact .inr ⟨overlay, ho ▸ hm, hl, hr⟩

theorem Reaches.closes {group : OpenGroup} {slot : Slot} {next : Nat}
    (h : w.Reaches level x) (hc : Closes w u group slot next) : u.Reaches level x :=
  h.of_le (hc.cursor_eq ▸ Nat.le_max_left _ _) hc.overlays_eq

theorem Reaches.closeOverlay {overlay : OpenOverlay} {outer : List OpenOverlay}
    (h : w.Reaches level x) (ho : w.overlays = overlay :: outer) :
    (w.closeOverlay overlay outer).Reaches level x := by
  rcases h with h | ⟨o, hm, hl, hr⟩
  · exact .inl (Nat.le_trans h (Nat.le_max_left _ _))
  · rcases List.mem_cons.1 (ho ▸ hm) with rfl | hm
    · exact .inl (Nat.le_trans hr (Nat.le_max_right _ _))
    · exact .inr ⟨o, hm, hl, hr⟩

/-- A redefinition remembers how far the cursor was. -/
theorem Reaches.places {y : Declaration} {target : Option Nat} {slot : Slot}
    (h : w.Reaches level x) (hp : Places w u y target v slot) (hl : level < y.descriptor.level) :
    u.Reaches level x := by
  have hv : v.Reaches level x := by
    cases hp.rewinds with
    | stay => exact h
    | back _ _ _ _ =>
      rcases h with h | ⟨o, hm, hlevel, hr⟩
      · exact .inr ⟨_, List.mem_cons_self, hl, Nat.le_trans h (Nat.le_max_right _ _)⟩
      · exact .inr ⟨o, List.mem_cons_of_mem _ hm, hlevel, hr⟩
  exact hv.of_le hp.le_cursor hp.overlays_eq

/-! ## What a group covers -/

/-- The group at an index is still open. -/
def IsOpen (w : Walk) (i : Nat) : Prop := ∃ group ∈ w.groups, group.index = i

/-- How far groups reach. -/
structure Covering (w : Walk) : Prop where
  /-- The cursor will be behind everything inside an open group when that closes. -/
  inside_open : ∀ group ∈ w.groups, ∀ (i : Nat) (slot : Slot), w.slots[i]? = some slot →
    slot.field.parent = some group.index → ¬ w.IsOpen i → w.Reaches group.level slot.limit
  /-- A closed group reaches as far as everything inside it. -/
  inside_closed : ∀ (i p : Nat) (slot outer : Slot), w.slots[i]? = some slot →
    slot.field.parent = some p → ¬ w.IsOpen p → w.slots[p]? = some outer →
    ¬ w.IsOpen i ∧ slot.limit ≤ outer.limit
  end_eq : ∀ (i : Nat) (slot : Slot), w.slots[i]? = some slot → slot.field.isGroup = true →
    ¬ w.IsOpen i → slot.field.endPosition =
      if slot.field.startPosition < slot.limit then slot.limit - 1 else slot.field.startPosition

namespace Covering

theorem start (rules : Rules) : (Walk.start rules).Covering := by
  constructor <;> simp [Walk.start]

theorem of_eq (h : w.Covering) (hs : u.slots = w.slots) (hg : u.groups = w.groups)
    (hr : ∀ level x, w.Reaches level x → u.Reaches level x) : u.Covering := by
  have ho : ∀ i, u.IsOpen i ↔ w.IsOpen i := fun i => by rw [IsOpen, IsOpen, hg]
  refine ⟨?_, ?_, ?_⟩
  · intro group hm i slot hi hp hn
    exact hr _ _ (h.inside_open group (hg ▸ hm) i slot (hs ▸ hi) hp (mt (ho i).2 hn))
  · intro i p slot outer hi hp hn hout
    obtain ⟨hclosed, hle⟩ :=
      h.inside_closed i p slot outer (hs ▸ hi) hp (mt (ho p).2 hn) (hs ▸ hout)
    exact ⟨mt (ho i).1 hclosed, hle⟩
  · exact fun i slot hi hk hn => h.end_eq i slot (hs ▸ hi) hk (mt (ho i).2 hn)

/-- Nothing deeper is open when a group closes, so all items inside it end before it does. -/
theorem inside_of_closes {group : OpenGroup} {slot : Slot} {next : Nat} (h : w.Covering)
    (hl : w.Linked) (hn : w.Nested) (hc : Closes w u group slot next)
    (hnext : next = w.behindGroup slot) {i : Nat} {s : Slot} (hi : w.slots[i]? = some s)
    (hp : s.field.parent = some group.index) : ¬ w.IsOpen i ∧ s.limit ≤ next := by
  obtain ⟨hlt, -⟩ := (hl.linksBack hi).parent _ hp
  have hclosed : ¬ w.IsOpen i := by
    rintro ⟨g, hg, rfl⟩
    rcases List.mem_cons.1 (hc.groups_eq ▸ hg) with rfl | hg
    · omega
    · have := hc.index_lt hn hg
      omega
  refine ⟨hclosed, ?_⟩
  rw [hnext]
  refine Nat.le_trans ?_ (cursor_le_behindGroup hc.start_le)
  rcases h.inside_open group (hc.groups_eq ▸ List.mem_cons_self) i s hi hp hclosed with
    hle | ⟨o, ho, hlevel, -⟩
  · exact hle
  · have := hc.overlays_le o ho
    omega

theorem closes {group : OpenGroup} {slot : Slot} {next : Nat} (h : w.Covering) (hl : w.Linked)
    (hn : w.Nested) (hc : Closes w u group slot next) (hnext : next = w.behindGroup slot) :
    u.Covering := by
  have hopen : ∀ i, w.IsOpen i ↔ i = group.index ∨ u.IsOpen i := by
    intro i
    simp only [IsOpen, hc.groups_eq, List.mem_cons, or_and_right, exists_or, exists_eq_left]
    exact or_congr_left eq_comm
  refine ⟨?_, ?_, ?_⟩
  · intro g hg i s hi hp hn'
    have hg' : g ∈ w.groups := hc.groups_eq ▸ List.mem_cons_of_mem _ hg
    rcases hc.getElem?_slots hi with ⟨rfl, rfl⟩ | ⟨hne, hi⟩
    · exact .inl (hc.cursor_eq ▸ Nat.le_max_right _ _)
    · have hclosed : ¬ w.IsOpen i := fun ho => (hopen i).1 ho |>.elim hne hn'
      exact (h.inside_open g hg' i s hi hp hclosed).closes hc
  · intro i p s outer hi hp hn' hout
    have hparent : ∃ s₀, w.slots[i]? = some s₀ ∧ s₀.field.parent = some p ∧
        (i ≠ group.index → s = s₀) := by
      rcases hc.getElem?_slots hi with ⟨rfl, rfl⟩ | ⟨-, hi⟩
      · exact ⟨slot, hc.slot_eq, hp, fun hne => absurd rfl hne⟩
      · exact ⟨s, hi, hp, fun _ => rfl⟩
    obtain ⟨s₀, hi₀, hp₀, hs₀⟩ := hparent
    rcases hc.getElem?_slots hout with ⟨rfl, rfl⟩ | ⟨hne, hout⟩
    · obtain ⟨ho, hle⟩ := h.inside_of_closes hl hn hc hnext hi₀ hp₀
      have hi' : i ≠ group.index := fun he => ho ((hopen i).2 (.inl he))
      exact ⟨fun hu => ho ((hopen i).2 (.inr hu)), hs₀ hi' ▸ hle⟩
    · have hclosed : ¬ w.IsOpen p := fun ho => (hopen p).1 ho |>.elim hne hn'
      obtain ⟨ho, hle⟩ := h.inside_closed i p s₀ outer hi₀ hp₀ hclosed hout
      have hi' : i ≠ group.index := fun he => ho ((hopen i).2 (.inl he))
      exact ⟨fun hu => ho ((hopen i).2 (.inr hu)), hs₀ hi' ▸ hle⟩
  · intro i s hi hk hn'
    rcases hc.getElem?_slots hi with ⟨-, rfl⟩ | ⟨hne, hi⟩
    · rfl
    · exact h.end_eq i s hi hk fun ho => (hopen i).1 ho |>.elim hne hn'

/-- A slot at the end is a group that stays open, or has no items inside. -/
theorem snoc {slot : Slot} (h : w.Covering) (hl : w.Linked) (hn : w.Nested)
    (hs : u.slots = w.slots ++ [slot])
    (hg : u.groups = w.groups ∧ slot.field.isGroup = false ∨
      ∃ group, group.index = w.slots.length ∧ u.groups = group :: w.groups)
    (hr : ∀ group ∈ w.groups, ∀ x, w.Reaches group.level x → u.Reaches group.level x)
    (hp : ∀ p, slot.field.parent = some p → w.IsOpen p)
    (hlimit : ∀ p, slot.field.parent = some p → slot.limit ≤ u.cursor) : u.Covering := by
  have hopen : ∀ {i : Nat}, w.IsOpen i → u.IsOpen i := by
    rintro i ⟨group, hm, he⟩
    rcases hg with ⟨hg, -⟩ | ⟨g, -, hg⟩
    · exact ⟨group, hg ▸ hm, he⟩
    · exact ⟨group, hg ▸ List.mem_cons_of_mem _ hm, he⟩
  have hold : ∀ {i : Nat}, i < w.slots.length → u.IsOpen i → w.IsOpen i := by
    rintro i hi ⟨group, hm, rfl⟩
    rcases hg with ⟨hg, -⟩ | ⟨g, hnew, hg⟩
    · exact ⟨group, hg ▸ hm, rfl⟩
    · rcases List.mem_cons.1 (hg ▸ hm) with rfl | hm
      · omega
      · exact ⟨group, hm, rfl⟩
  have hlt : ∀ {i : Nat}, w.IsOpen i → i < w.slots.length := by
    rintro i ⟨group, hm, rfl⟩
    exact hn.index_lt hm
  refine ⟨?_, ?_, ?_⟩
  · intro group hm i s hi hparent hn'
    rcases getElem?_snoc (hs ▸ hi) with ⟨-, hi⟩ | ⟨-, rfl⟩
    · obtain ⟨hplt, o, ho, -⟩ := (hl.linksBack hi).parent _ hparent
      have hm' : group ∈ w.groups := by
        rcases hg with ⟨hg, -⟩ | ⟨g, hnew, hg⟩
        · exact hg ▸ hm
        · rcases List.mem_cons.1 (hg ▸ hm) with rfl | hm
          · have := (List.getElem?_eq_some_iff.1 ho).1
            simp [fields] at this
            omega
          · exact hm
      exact hr group hm' _ (h.inside_open group hm' i s hi hparent (mt hopen hn'))
    · exact .inl (hlimit _ hparent)
  · intro i p s outer hi hparent hn' hout
    rcases getElem?_snoc (hs ▸ hi) with ⟨hi', hi⟩ | ⟨-, rfl⟩
    · obtain ⟨hplt, -⟩ := (hl.linksBack hi).parent _ hparent
      rcases getElem?_snoc (hs ▸ hout) with ⟨-, hout⟩ | ⟨rfl, -⟩
      · obtain ⟨hclosed, hle⟩ := h.inside_closed i p s outer hi hparent (mt hopen hn') hout
        exact ⟨mt (hold hi') hclosed, hle⟩
      · omega
    · exact absurd (hopen (hp p hparent)) hn'
  · intro i s hi hk hn'
    rcases getElem?_snoc (hs ▸ hi) with ⟨-, hi⟩ | ⟨rfl, rfl⟩
    · exact h.end_eq i s hi hk (mt hopen hn')
    · rcases hg with ⟨-, hg⟩ | ⟨g, hnew, hg⟩
      · rw [hg] at hk
        cases hk
      · exact absurd ⟨g, hg ▸ List.mem_cons_self, hnew⟩ hn'

theorem condition (h : w.Covering) (hl : w.Linked) (hn : w.Nested) {d : Entry.Descriptor}
    (line i : Nat) (slot : Slot) (span : Span) (hk : d.kind = .condition) :
    (w.push (conditionOf d line i slot) span).Covering := by
  have hparent : (conditionOf d line i slot).parent = none := parent_ofDescriptor d line
  have hgroup : (conditionOf d line i slot).isGroup = false := by
    simp [conditionOf, Field.isGroup, Field.setExtent, kind_ofDescriptor, hk]
  refine h.snoc hl hn (slots_push w _ span) (.inl ⟨rfl, hgroup⟩) (fun _ _ _ hr => hr) ?_ ?_
  · intro p hp
    rw [hparent] at hp
    cases hp
  · intro p hp
    rw [hparent] at hp
    cases hp

theorem places {y : Declaration} {target : Option Nat} {slot : Slot} (h : w.Covering)
    (hl : w.Linked) (hn : w.Nested) (hk : y.descriptor.kind ≠ .condition)
    (hs : nextScope? y.descriptor.level w.groups w.overlays = none)
    (hp : Places w u y target v slot) : u.Covering := by
  refine h.snoc hl hn hp.slots_eq ?_ ?_ ?_ ?_
  · cases hd : y.descriptor.kind with
    | condition => exact absurd hd hk
    | group => exact .inr ⟨_, rfl, (hp.of_group hd).1⟩
    | elementary => exact .inl ⟨(hp.of_elementary hd).1, by simp [Field.isGroup, hp.kind_eq, hd]⟩
  · exact fun group hm x hr => hr.places hp ((hn.levels_lt hs).1 group hm)
  · intro p hparent
    rw [hp.parent_eq, Option.map_eq_some_iff] at hparent
    obtain ⟨group, hg, rfl⟩ := hparent
    exact ⟨group, List.mem_of_mem_head? hg, rfl⟩
  · exact fun _ _ => Nat.le_of_eq hp.limit_eq

end Covering

/-- Groups cover their items throughout a walk that does not overflow. -/
theorem covering_run {rules : Rules} {entries : List Entry}
    (ht : (run rules entries).tooLarge = false) : (run rules entries).Covering := by
  refine (run_linked_steps (P := fun w => w.tooLarge = false → w.Covering)
    (fun _ => Covering.start rules) ?_ ?_ ?_ ?_ ?_ entries).2 ht
  · intro w u group slot next hn hl hc h htu
    obtain ⟨htw, hnext⟩ := hc.fits htu
    exact (h htw).closes hl hn hc hnext
  · exact fun w overlay outer ho h htu => (h htu).of_eq rfl rfl fun _ _ hr => hr.closeOverlay ho
  · exact fun w d h htu => (h htu).of_eq rfl rfl fun _ _ hr => hr
  · exact fun w d line span i slot hk hn hl _ h htu => (h htu).condition hl hn line i slot span hk
  · exact fun w u x target v slot hn hl hk hs hp h htu => (h (hp.fits htu)).places hl hn hk hs hp

/-! ## Where groups start -/

/-- The first byte of the field at an index. -/
def startOf (w : Walk) (i : Nat) : Nat := (w.slots[i]?.map (·.field.startPosition)).getD 0

theorem startOf_eq {i : Nat} {slot : Slot} (h : w.slots[i]? = some slot) :
    w.startOf i = slot.field.startPosition := by
  simp [startOf, h]

theorem startsKept_closes {group : OpenGroup} {slot : Slot} {next : Nat}
    (hc : Closes w u group slot next) : StartsKept w.fields u.fields := by
  intro i f hf
  obtain ⟨s, hs, rfl⟩ := getElem?_fields.1 hf
  rcases hc.kept hs with ⟨rfl, hu⟩ | hu
  · exact ⟨_, getElem?_fields.2 ⟨_, hu, rfl⟩, rfl, rfl, rfl⟩
  · exact ⟨_, getElem?_fields.2 ⟨s, hu, rfl⟩, rfl, rfl, rfl⟩

theorem startsKept_snoc {slot : Slot} (hs : u.slots = w.slots ++ [slot]) :
    StartsKept w.fields u.fields := by
  intro i f hf
  obtain ⟨s, hw, rfl⟩ := getElem?_fields.1 hf
  obtain ⟨hlt, -⟩ := List.getElem?_eq_some_iff.1 hw
  have hu : u.slots[i]? = some s := by rw [hs, List.getElem?_append_left hlt, hw]
  exact ⟨_, getElem?_fields.2 ⟨s, hu, rfl⟩, rfl, rfl, rfl⟩

theorem startOf_of_kept (h : StartsKept w.fields u.fields) {i : Nat} (hi : i < w.slots.length) :
    u.startOf i = w.startOf i := by
  have hw : w.slots[i]? = some w.slots[i] := List.getElem?_eq_getElem hi
  obtain ⟨f', hf', -, -, hs⟩ := h i _ (getElem?_fields.2 ⟨_, hw, rfl⟩)
  obtain ⟨s, hu, rfl⟩ := getElem?_fields.1 hf'
  rw [startOf_eq hu, startOf_eq hw, hs]

/-- Where groups start in a walk without redefinitions that leave their group. -/
structure Grounding (w : Walk) : Prop where
  grounded : IsGrounded w.fields
  start_le_cursor : ∀ group ∈ w.groups, w.startOf group.index ≤ w.cursor
  sorted : w.groups.Pairwise fun inner outer => w.startOf outer.index ≤ w.startOf inner.index

namespace Grounding

theorem of_kept (h : w.Grounding) (hn : w.Nested) (hk : StartsKept w.fields u.fields)
    (hlen : u.slots.length = w.slots.length) (hg : u.groups.Sublist w.groups)
    (hc : w.cursor ≤ u.cursor) : u.Grounding := by
  have hstart : ∀ group ∈ w.groups, u.startOf group.index = w.startOf group.index :=
    fun group hm => startOf_of_kept hk (hn.index_lt hm)
  have hold : ∀ {i : Nat} {f : Field}, u.fields[i]? = some f → ∃ f₀, w.fields[i]? = some f₀ ∧
      f.parent = f₀.parent ∧ f.startPosition = f₀.startPosition := by
    intro i f hf
    have hlt : i < w.fields.length := by
      have := (List.getElem?_eq_some_iff.1 hf).1
      simpa [fields, hlen] using this
    obtain ⟨f', hf', hp, -, hs⟩ := hk i _ (List.getElem?_eq_getElem hlt)
    rw [hf] at hf'
    obtain rfl := Option.some.inj hf'
    exact ⟨_, List.getElem?_eq_getElem hlt, hp, hs⟩
  refine ⟨?_, ?_, ?_⟩
  · intro f hf p hp g hgf
    obtain ⟨i, hi⟩ := List.mem_iff_getElem?.1 hf
    obtain ⟨f₀, hf₀, hp₀, hs₀⟩ := hold hi
    obtain ⟨g₀, hg₀, -, hsg⟩ := hold hgf
    rw [hs₀, hsg]
    exact h.grounded f₀ (List.mem_of_getElem? hf₀) p (hp₀ ▸ hp) g₀ hg₀
  · intro group hm
    rw [hstart group (hg.subset hm)]
    exact Nat.le_trans (h.start_le_cursor group (hg.subset hm)) hc
  · refine (h.sorted.sublist hg).imp_of_mem fun {a b} ha hb hab => ?_
    rw [hstart a (hg.subset ha), hstart b (hg.subset hb)]
    exact hab

/-- A slot at the end starts behind the starts of the groups around it. -/
theorem snoc {slot : Slot} (h : w.Grounding) (hl : w.Linked) (hn : w.Nested)
    (hs : u.slots = w.slots ++ [slot])
    (hg : u.groups = w.groups ∨ ∃ group, group.index = w.slots.length ∧
      u.groups = group :: w.groups ∧ slot.field.startPosition ≤ u.cursor ∧
      ∀ outer ∈ w.groups, w.startOf outer.index ≤ slot.field.startPosition)
    (hp : ∀ p, slot.field.parent = some p → w.startOf p ≤ slot.field.startPosition)
    (hc : ∀ group ∈ w.groups, w.startOf group.index ≤ u.cursor) : u.Grounding := by
  have hstart : ∀ group ∈ w.groups, u.startOf group.index = w.startOf group.index :=
    fun group hm => startOf_of_kept (startsKept_snoc hs) (hn.index_lt hm)
  have hnew : u.startOf w.slots.length = slot.field.startPosition :=
    startOf_eq (by rw [hs, List.getElem?_concat_length])
  have hsorted : w.groups.Pairwise fun inner outer =>
      u.startOf outer.index ≤ u.startOf inner.index := by
    refine h.sorted.imp_of_mem fun {a b} ha hb hab => ?_
    rwa [hstart a ha, hstart b hb]
  refine ⟨?_, ?_, ?_⟩
  · intro f hf p hparent g hgf
    obtain ⟨i, hif⟩ := List.mem_iff_getElem?.1 hf
    obtain ⟨s, hi, rfl⟩ := getElem?_fields.1 hif
    obtain ⟨o, ho, rfl⟩ := getElem?_fields.1 hgf
    rcases getElem?_snoc (hs ▸ hi) with ⟨hlt, hi⟩ | ⟨rfl, rfl⟩
    · obtain ⟨hplt, -⟩ := (hl.linksBack hi).parent p hparent
      rcases getElem?_snoc (hs ▸ ho) with ⟨-, ho⟩ | ⟨rfl, -⟩
      · exact h.grounded _ (List.mem_of_getElem? (getElem?_fields.2 ⟨s, hi, rfl⟩)) p hparent _
          (getElem?_fields.2 ⟨o, ho, rfl⟩)
      · omega
    · rcases getElem?_snoc (hs ▸ ho) with ⟨-, ho⟩ | ⟨rfl, rfl⟩
      · exact startOf_eq ho ▸ hp p hparent
      · exact Nat.le_refl _
  · intro group hm
    rcases hg with hg | ⟨g, hidx, hg, hle, -⟩
    · rw [hstart group (hg ▸ hm)]
      exact hc group (hg ▸ hm)
    · rcases List.mem_cons.1 (hg ▸ hm) with rfl | hm
      · rwa [hidx, hnew]
      · rw [hstart group hm]
        exact hc group hm
  · rcases hg with hg | ⟨g, hidx, hg, -, hle⟩
    · exact hg ▸ hsorted
    · rw [hg]
      refine .cons (fun o ho => ?_) hsorted
      rw [hidx, hnew, hstart o ho]
      exact hle o ho

theorem condition (h : w.Grounding) (hl : w.Linked) (hn : w.Nested) (d : Entry.Descriptor)
    (line i : Nat) (slot : Slot) (span : Span) :
    (w.push (conditionOf d line i slot) span).Grounding := by
  have hparent : (conditionOf d line i slot).parent = none := parent_ofDescriptor d line
  refine h.snoc hl hn (slots_push w _ span) (.inl rfl) (fun p hp => ?_) h.start_le_cursor
  rw [hparent] at hp
  cases hp

theorem places {y : Declaration} {target : Option Nat} {slot : Slot} (h : w.Grounding)
    (hl : w.Linked) (hn : w.Nested) (hk : y.descriptor.kind ≠ .condition)
    (hp : Places w u y target v slot) (hc : IsConfined u.fields) : u.Grounding := by
  have hkept := startsKept_snoc hp.slots_eq
  -- Where a redefinition begins, the innermost group has begun, and so have those around it.
  have hall : ∀ group ∈ w.groups, w.startOf group.index ≤ v.cursor := by
    cases hr : hp.rewinds with
    | stay => exact h.start_le_cursor
    | @back name i targetSlot base redefines named target_eq base_eq =>
      intro group hm
      cases hgs : w.groups with
      | nil =>
        rw [hgs] at hm
        cases hm
      | cons head outer =>
        have hsorted := h.sorted
        rw [hgs, List.pairwise_cons] at hsorted
        have hparent : slot.field.parent = some head.index := by rw [hp.parent_eq, hgs]; rfl
        obtain ⟨o, ho, -⟩ := hn.grounded head (hgs ▸ List.mem_cons_self)
        obtain ⟨g, hg, -, -, hs⟩ := hkept _ _ (getElem?_fields.2 ⟨o, ho, rfl⟩)
        have hnew : u.fields[w.slots.length]? = some slot.field :=
          getElem?_fields.2 ⟨slot, by rw [hp.slots_eq, List.getElem?_concat_length], rfl⟩
        have hhead : w.startOf head.index ≤ slot.field.startPosition := by
          rw [startOf_eq ho, ← hs]
          exact hc _ (List.mem_of_getElem? hnew) (by rw [hp.target_eq]; rfl) _ hparent g hg
        rw [hp.start_eq] at hhead
        rcases List.mem_cons.1 (hgs ▸ hm) with rfl | hm
        · exact hhead
        · exact Nat.le_trans (hsorted.1 group hm) hhead
  refine h.snoc hl hn hp.slots_eq ?_ ?_ fun group hm => Nat.le_trans (hall group hm) hp.le_cursor
  · cases hd : y.descriptor.kind with
    | condition => exact absurd hd hk
    | elementary => exact .inl (hp.of_elementary hd).1
    | group =>
      exact .inr ⟨_, rfl, (hp.of_group hd).1, hp.start_eq ▸ hp.le_cursor,
        fun o ho => hp.start_eq ▸ hall o ho⟩
  · intro p hparent
    rw [hp.parent_eq, Option.map_eq_some_iff] at hparent
    obtain ⟨group, hg, rfl⟩ := hparent
    exact hp.start_eq ▸ hall group (List.mem_of_mem_head? hg)

end Grounding

/-- Fields start inside their groups in a walk without redefinitions that leave their group. -/
theorem grounding_run {rules : Rules} {entries : List Entry}
    (hc : IsConfined (run rules entries).fields) : (run rules entries).Grounding := by
  refine (run_linked_steps (P := fun w => IsConfined w.fields → w.Grounding) ?_ ?_ ?_ ?_ ?_ ?_
    entries).2 hc
  · intro _
    constructor <;> simp [start, fields, IsGrounded]
  · intro w u group slot next hn hl hc h hu
    have hlen : u.slots.length = w.slots.length := by rw [hc.slots_eq, List.length_set]
    exact (h ((startsKept_closes hc).isConfined hu)).of_kept hn (startsKept_closes hc) hlen
      (hc.groups_eq ▸ List.sublist_cons_self _ _) (hc.cursor_eq ▸ Nat.le_max_left _ _)
  · intro w overlay outer _ h hu
    have hg := h hu
    exact ⟨hg.grounded, fun group hm => Nat.le_trans (hg.start_le_cursor group hm)
      (Nat.le_max_left _ _), hg.sorted⟩
  · exact fun w d h hu => ⟨(h hu).grounded, (h hu).start_le_cursor, (h hu).sorted⟩
  · intro w d line span i slot _ hn hl _ h hu
    exact (h ((startsKept_snoc (slots_push w _ span)).isConfined hu)).condition hl hn d line i slot
      span
  · intro w u x target v slot hn hl hk _ hp h hu
    exact (h ((startsKept_snoc hp.slots_eq).isConfined hu)).places hl hn hk hp hu

end Walk

/-! ## Groups around a field -/

/-- The field at the first index is a group around the field at the second one. -/
inductive Encloses (fields : List Field) : Nat → Nat → Prop
  | parent {p i : Nat} (h : parentOf fields i = some p) : Encloses fields p i
  | outer {a p i : Nat} (h : parentOf fields i = some p) (outer : Encloses fields a p) :
      Encloses fields a i

namespace Encloses

variable {fields : List Field} {a b i : Nat}

theorem trans (h : Encloses fields a b) (h' : Encloses fields b i) : Encloses fields a i := by
  induction h' with
  | parent hp => exact .outer hp h
  | outer hp _ ih => exact .outer hp ih

theorem of_mem_chain {p : Nat} (hp : parentOf fields i = some p)
    (h : a ∈ chain (parentOf fields) p) : Encloses fields a i := by
  induction p using Nat.strongRecOn generalizing i with
  | _ p ih =>
    rw [chain] at h
    rcases List.mem_cons.1 h with rfl | h
    · exact .parent hp
    · cases ho : parentOf fields p with
      | none => simp [ho] at h
      | some o =>
        rw [ho] at h
        simp only at h
        split at h
        · rename_i hlt
          exact .outer hp (ih o hlt ho h)
        · cases h

/-- The groups around a field that stays were around it before. -/
theorem exists_of_prune {rules : Rules} {k : Nat} (h : Encloses (prune rules fields) a k)
    (hi : renumbered (numbersOf rules fields) i = some k) :
    ∃ b, renumbered (numbersOf rules fields) b = some a ∧ Encloses fields b i := by
  have hn := numbering_numbersOf rules fields
  have hparent : ∀ {k p i : Nat}, parentOf (prune rules fields) k = some p →
      renumbered (numbersOf rules fields) i = some k →
      ∃ q, renumbered (numbersOf rules fields) q = some p ∧ Encloses fields q i := by
    intro k p i hp hi
    obtain ⟨f', hk, hf'⟩ := Option.bind_eq_some_iff.1 hp
    obtain ⟨j, f, hf, hj, rfl⟩ := getElem?_prune.1 hk
    obtain rfl := hn.injective hj hi
    obtain ⟨-, o, q, ho, hq, hnq⟩ := keptParent_eq_some hf'
    exact ⟨q, hnq, of_mem_chain (by simp [parentOf, hf, ho]) hq⟩
  induction h generalizing i with
  | parent hp => exact hparent hp hi
  | outer hp _ ih =>
    obtain ⟨q, hnq, hq⟩ := hparent hp hi
    obtain ⟨b, hnb, hb⟩ := ih hnq
    exact ⟨b, hnb, hb.trans hq⟩

end Encloses

theorem IsGrounded.start_le {fields : List Field} (h : IsGrounded fields) (hl : IsLinked fields)
    {a i : Nat} {f g : Field} (he : Encloses fields a i) (hf : fields[i]? = some f)
    (hg : fields[a]? = some g) : g.startPosition ≤ f.startPosition := by
  induction he generalizing f with
  | parent hp =>
    have hparent : f.parent = some a := by simpa [parentOf, hf] using hp
    exact h f (List.mem_of_getElem? hf) a hparent g hg
  | @outer p i hp _ ih =>
    have hparent : f.parent = some p := by simpa [parentOf, hf] using hp
    obtain ⟨-, o, ho, -⟩ := (hl i f hf).parent p hparent
    exact Nat.le_trans (ih ho) (h f (List.mem_of_getElem? hf) p hparent o ho)

theorem IsLinked.isGroup_of_encloses {fields : List Field} (hl : IsLinked fields) {a i : Nat}
    {f g : Field} (he : Encloses fields a i) (hf : fields[i]? = some f) (hg : fields[a]? = some g) :
    g.isGroup = true := by
  induction he generalizing f with
  | parent hp =>
    obtain ⟨-, o, ho, hgroup, -⟩ := (hl _ f hf).parent a (by simpa [parentOf, hf] using hp)
    obtain rfl := Option.some.inj (hg.symm.trans ho)
    exact hgroup
  | outer hp _ ih =>
    obtain ⟨-, o, ho, -⟩ := (hl _ f hf).parent _ (by simpa [parentOf, hf] using hp)
    exact ih ho

/-- With nothing open, every group reaches as far as everything inside it. -/
theorem Walk.Covering.limit_le {w : Walk} (h : w.Covering) (hl : w.Linked) (hn : w.groups = [])
    {a i : Nat} {slot outer : Slot} (he : Encloses w.fields a i) (hi : w.slots[i]? = some slot)
    (ha : w.slots[a]? = some outer) : slot.limit ≤ outer.limit := by
  have hclosed : ∀ p, ¬ w.IsOpen p := by
    rintro p ⟨g, hg, -⟩
    rw [hn] at hg
    cases hg
  induction he generalizing slot with
  | parent hp =>
    have hparent : slot.field.parent = some a := by simpa [parentOf, fields, hi] using hp
    exact (h.inside_closed _ _ slot outer hi hparent (hclosed a) ha).2
  | @outer p i hp _ ih =>
    have hparent : slot.field.parent = some p := by simpa [parentOf, fields, hi] using hp
    obtain ⟨-, o, ho, -⟩ := (hl.linksBack hi).parent p hparent
    obtain ⟨os, hos, -⟩ := getElem?_fields.1 ho
    exact Nat.le_trans (h.inside_closed i p slot os hi hparent (hclosed p) hos).2 (ih hos)

/-! ## Groups of a record -/

/-- Two fields have the same role and the same bytes. -/
structure SameBytes (f g : Field) : Prop where
  kind_eq : f.kind = g.kind
  occurs_eq : f.occurs = g.occurs
  start_eq : f.startPosition = g.startPosition
  end_eq : f.endPosition = g.endPosition
  storage_eq : f.storageLength = g.storageLength

/-- A field of a record is one of its walk, at the index that got its number. -/
theorem exists_slot_of_getElem?_ofWalk {rules : Rules} {w : Walk} {k : Nat} {f : Field}
    (h : (ofWalk rules w).fields[k]? = some f) :
    ∃ i slot, w.slots[i]? = some slot ∧
      renumbered (numbersOf rules (assignOverlays w.fields)) i = some k ∧
      SameBytes slot.field f := by
  obtain ⟨i, g, hg, hi, rfl⟩ := getElem?_prune.1 h
  rw [getElem?_assignOverlays, Option.map_eq_some_iff] at hg
  obtain ⟨g₀, hg₀, rfl⟩ := hg
  obtain ⟨slot, hs, rfl⟩ := Walk.getElem?_fields.1 hg₀
  exact ⟨i, slot, hs, hi, rfl, rfl, rfl, rfl, rfl⟩

theorem exists_encloses_of_ofWalk {rules : Rules} {w : Walk} {a k i : Nat}
    (h : Encloses (ofWalk rules w).fields a k)
    (hi : renumbered (numbersOf rules (assignOverlays w.fields)) i = some k) :
    ∃ b, renumbered (numbersOf rules (assignOverlays w.fields)) b = some a ∧
      Encloses w.fields b i := by
  have hparent : ∀ {a i : Nat}, Encloses (assignOverlays w.fields) a i → Encloses w.fields a i := by
    intro a i he
    induction he with
    | parent hp => exact .parent (parentOf_assignOverlays _ ▸ hp)
    | outer hp _ ih => exact .outer (parentOf_assignOverlays _ ▸ hp) ih
  obtain ⟨b, hb, he⟩ := h.exists_of_prune hi
  exact ⟨b, hb, hparent he⟩

variable {rules : Rules} {entries : List Entry} {a k : Nat} {f g : Field}

/-- In a record that is not too large, items with bytes end inside every group around them. -/
theorem end_le_of_encloses (hs : (ofEntries rules entries).reports .recordTooLarge = false)
    (he : Encloses (ofEntries rules entries).fields a k)
    (hf : (ofEntries rules entries).fields[k]? = some f) (hk : f.isElementary = true)
    (hb : 0 < f.storageLength) (hg : (ofEntries rules entries).fields[a]? = some g) :
    f.endPosition ≤ g.endPosition := by
  obtain ⟨i, slot, hi, hik, hfe⟩ := exists_slot_of_getElem?_ofWalk hf
  obtain ⟨j, outer, hj, hja, hge⟩ := exists_slot_of_getElem?_ofWalk hg
  obtain ⟨b, hba, henc⟩ := exists_encloses_of_ofWalk he hik
  obtain rfl := (numbering_numbersOf rules _).injective hja hba
  rw [reports_tooLarge] at hs
  have hl := Walk.linked_run rules entries
  have hc := Walk.covering_run hs
  have hn := (Walk.groups_run rules entries).1
  have hle := hc.limit_le hl hn henc hi hj
  have hgroup := hl.links.isGroup_of_encloses henc (Walk.getElem?_fields.2 ⟨slot, hi, rfl⟩)
    (Walk.getElem?_fields.2 ⟨outer, hj, rfl⟩)
  have hend := hc.end_eq j outer hj hgroup (by simp [Walk.IsOpen, hn])
  have hm := Walk.isMeasured_run rules entries slot (List.mem_of_getElem? hi)
  have hkind : slot.field.isElementary = true := by rwa [isElementary_eq, hfe.kind_eq]
  have hlimit := hm.limit_eq hkind
  have hslot := hm.end_eq hkind
  rw [← hfe.storage_eq] at hb
  rw [if_pos hb] at hslot
  rw [← hfe.end_eq, ← hge.end_eq]
  split at hend <;> omega

/-- In a record without redefinitions that leave their group, fields start inside every group
around them. -/
theorem start_le_of_encloses (hc : IsConfined (Walk.run rules entries).fields)
    (he : Encloses (ofEntries rules entries).fields a k)
    (hf : (ofEntries rules entries).fields[k]? = some f)
    (hg : (ofEntries rules entries).fields[a]? = some g) : g.startPosition ≤ f.startPosition := by
  obtain ⟨i, slot, hi, hik, hfe⟩ := exists_slot_of_getElem?_ofWalk hf
  obtain ⟨j, outer, hj, hja, hge⟩ := exists_slot_of_getElem?_ofWalk hg
  obtain ⟨b, hba, henc⟩ := exists_encloses_of_ofWalk he hik
  obtain rfl := (numbering_numbersOf rules _).injective hja hba
  have hle := (Walk.grounding_run hc).grounded.start_le (Walk.linked_run rules entries).links henc
    (Walk.getElem?_fields.2 ⟨slot, hi, rfl⟩) (Walk.getElem?_fields.2 ⟨outer, hj, rfl⟩)
  rwa [hfe.start_eq, hge.start_eq] at hle

end DataDivision.Record
