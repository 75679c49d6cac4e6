import DataDivision.Proofs.Record.Attribution
import DataDivision.Proofs.Record.DataFields
import DataDivision.Proofs.Record.Rooted

/-!
Walks over data items.

A walk without its condition names is a walk again, with all indices renumbered (`data`).  Every
step that a data item takes can be taken there (`data_declare`, `data_closeScopes`), and the steps
of condition names leave it as it is (`data_push_condition`).
-/

namespace DataDivision

/-- The links of the field lead to indices before the given one. -/
def Field.LinksBelow (f : Field) (n : Nat) : Prop :=
  (∀ p ∈ f.parent, p < n) ∧ ∀ t ∈ f.redefinesTarget, t < n

theorem Field.LinksBelow.relabel_congr {f : Field} {n : Nat} (h : f.LinksBelow n)
    {r r' : Nat → Nat} (hr : ∀ i, i < n → r i = r' i) : f.relabel r id = f.relabel r' id := by
  have hlink : ∀ {o : Option Nat}, (∀ i ∈ o, i < n) → o.map r = o.map r' := by
    intro o ho
    cases o with
    | none => rfl
    | some i => exact congrArg some (hr i (ho i rfl))
  simp only [Field.relabel, hlink h.1, hlink h.2]

namespace Record

def Slot.isData (slot : Slot) : Bool := slot.field.isData

def Slot.relabel (r : Nat → Nat) (slot : Slot) : Slot :=
  { slot with field := slot.field.relabel r id }

def OpenGroup.relabel (r : Nat → Nat) (group : OpenGroup) : OpenGroup :=
  { group with index := r group.index }

def OpenOverlay.relabel (r : Nat → Nat) (overlay : OpenOverlay) : OpenOverlay :=
  { overlay with base := r overlay.base }

namespace Walk

/-- The data items of a walk, with all indices renumbered. -/
def relabel (r : Nat → Nat) (w : Walk) : Walk :=
  { w with
    slots := (w.slots.filter Slot.isData).map (Slot.relabel r)
    groups := w.groups.map (OpenGroup.relabel r)
    overlays := w.overlays.map (OpenOverlay.relabel r)
    shared := w.shared.map fun x => (r x.1, x.2)
    lastElementary := w.lastElementary.map r }

/-- The number of data items before an index. -/
def itemRank (w : Walk) : Nat → Nat := rank Slot.isData w.slots

def data (w : Walk) : Walk := w.relabel w.itemRank

theorem itemRank_eq (w : Walk) : w.itemRank = dataRank w.fields := by
  funext i
  rw [dataRank, fields, rank_map]
  rfl

theorem fields_data (w : Walk) : w.data.fields = dataFields id w.fields := by
  rw [dataFields, ← itemRank_eq, fields, fields, List.filter_map, List.map_map]
  simp only [data, relabel, List.map_map]
  rfl

theorem hasData_iff {w : Walk} {i : Nat} : w.HasData i ↔ Record.HasData w.fields i := by
  constructor
  · rintro ⟨slot, hs, hc⟩
    exact ⟨slot.field, getElem?_fields.2 ⟨slot, hs, rfl⟩, isData_iff.2 hc⟩
  · rintro ⟨f, hf, hd⟩
    obtain ⟨slot, hs, rfl⟩ := getElem?_fields.1 hf
    exact ⟨slot, hs, isData_iff.1 hd⟩

theorem getElem?_data {w : Walk} {i : Nat} {slot : Slot} (hi : w.slots[i]? = some slot)
    (hc : slot.field.isCondition = false) :
    w.data.slots[w.itemRank i]? = some (slot.relabel w.itemRank) := by
  have hat : (w.slots.filter Slot.isData)[w.itemRank i]? = some slot :=
    getElem?_filter_rank hi (isData_iff.2 hc)
  simp only [data, relabel, List.getElem?_map, hat, Option.map_some]

theorem length_data (w : Walk) : w.data.slots.length = w.itemRank w.slots.length := by
  simp only [data, relabel, List.length_map, itemRank, rank_length]

/-! ## Indices in range -/

/-- All indices in a walk are those of slots. -/
structure InRange (w : Walk) : Prop where
  links : ∀ slot ∈ w.slots, slot.field.LinksBelow w.slots.length
  group : ∀ group ∈ w.groups, group.index < w.slots.length
  overlay : ∀ overlay ∈ w.overlays, overlay.base < w.slots.length
  shared : ∀ x ∈ w.shared, x.1 < w.slots.length
  last : ∀ i ∈ w.lastElementary, i < w.slots.length

theorem Rooted.inRange {w : Walk} (h : w.Rooted) (hn : w.Nested) : w.InRange := by
  refine ⟨fun slot hs => ?_, fun group hg => hn.index_lt hg, fun v hv => (h.overlay_base v hv).lt,
    fun x hx => (h.shared_base x hx).lt, fun i hi => ?_⟩
  · obtain ⟨i, hi⟩ := List.mem_iff_getElem?.1 hs
    obtain ⟨hlt, -⟩ := List.getElem?_eq_some_iff.1 hi
    have hl := h.linked.linksBack hi
    exact ⟨fun p hp => Nat.lt_trans (hl.parent p hp).1 hlt,
      fun t ht => Nat.lt_trans (hl.target t ht).1 hlt⟩
  · obtain ⟨slot, hs, -⟩ := h.linked.last i hi
    exact (List.getElem?_eq_some_iff.1 hs).1

/-- Only the new indices of slots matter. -/
theorem InRange.relabel_congr {w : Walk} (h : w.InRange) {r r' : Nat → Nat}
    (hr : ∀ i, i < w.slots.length → r i = r' i) : w.relabel r = w.relabel r' := by
  have hslots : (w.slots.filter Slot.isData).map (Slot.relabel r) =
      (w.slots.filter Slot.isData).map (Slot.relabel r') := by
    refine List.map_congr_left fun slot hs => ?_
    simp only [Slot.relabel, (h.links slot (List.mem_filter.1 hs).1).relabel_congr hr]
  have hgroups : w.groups.map (OpenGroup.relabel r) = w.groups.map (OpenGroup.relabel r') :=
    List.map_congr_left fun g hg => by simp only [OpenGroup.relabel, hr _ (h.group g hg)]
  have hoverlays : w.overlays.map (OpenOverlay.relabel r) =
      w.overlays.map (OpenOverlay.relabel r') :=
    List.map_congr_left fun v hv => by simp only [OpenOverlay.relabel, hr _ (h.overlay v hv)]
  have hshared : (w.shared.map fun x => (r x.1, x.2)) = w.shared.map fun x => (r' x.1, x.2) :=
    List.map_congr_left fun x hx => by rw [hr _ (h.shared x hx)]
  have hlast : w.lastElementary.map r = w.lastElementary.map r' := by
    cases hl : w.lastElementary with
    | none => rfl
    | some i => exact congrArg some (hr i (h.last i hl))
  simp only [relabel, hslots, hgroups, hoverlays, hshared, hlast]

/-! ## Closing -/

theorem relabel_overflow (r : Nat → Nat) (w : Walk) (name : String) (span : Span) :
    (w.overflow name span).relabel r = (w.relabel r).overflow name span := by
  have ht : (w.relabel r).tooLarge = w.tooLarge := rfl
  unfold overflow
  rw [ht]
  split <;> rfl

theorem bound_relabel (r : Nat → Nat) (w : Walk) (next : Option Nat) (name : String)
    (span : Span) : (w.relabel r).bound next name span =
      ((w.bound next name span).1, (w.bound next name span).2.relabel r) := by
  obtain ⟨n, rfl, hn, hb⟩ | ⟨hn, hb⟩ := bound_cases w next name span
  · rw [hb, bound_of_le name span hn]
  · rw [hb, bound_of_lt name span hn, relabel_overflow]

def Scope.relabel (r : Nat → Nat) : Scope → Scope
  | .group g outer => .group (g.relabel r) (outer.map (OpenGroup.relabel r))
  | .overlay v outer => .overlay (v.relabel r) (outer.map (OpenOverlay.relabel r))

/-- Which scope closes next does not depend on indices. -/
theorem nextScope?_relabel (r : Nat → Nat) (level : Nat) (groups : List OpenGroup)
    (overlays : List OpenOverlay) :
    nextScope? level (groups.map (OpenGroup.relabel r)) (overlays.map (OpenOverlay.relabel r)) =
      (nextScope? level groups overlays).map (Scope.relabel r) := by
  have hg : nextGroup? level (groups.map (OpenGroup.relabel r)) =
      (nextGroup? level groups).map (Scope.relabel r) := by
    cases groups with
    | nil => rfl
    | cons group outer =>
      have hl : (group.relabel r).level = group.level := rfl
      simp only [List.map_cons, nextGroup?, hl]
      split <;> rfl
  cases overlays with
  | nil => exact hg
  | cons overlay outer =>
    have hd : overlayIsDue level (overlay.relabel r) (groups.map (OpenGroup.relabel r)) =
        overlayIsDue level overlay groups := by
      cases groups <;> rfl
    simp only [List.map_cons, nextScope?, hd]
    split
    · rfl
    · exact hg

/-- Closing the group of a slot. -/
theorem data_finishGroup {w : Walk} {i : Nat} {slot : Slot} (hi : w.slots[i]? = some slot)
    (hc : slot.field.isCondition = false) (next : Nat) (outer : List OpenGroup) :
    (w.finishGroup i slot next outer).data =
      w.data.finishGroup (w.itemRank i) (slot.relabel w.itemRank) next
        (outer.map (OpenGroup.relabel w.itemRank)) := by
  have hd : Slot.isData slot = true := isData_iff.2 hc
  have hd' : Slot.isData (slot.closed next) = true := isData_iff.2 hc
  have hrank : (w.finishGroup i slot next outer).itemRank = w.itemRank :=
    funext (rank_set hi (hd.trans hd'.symm))
  have hset : (w.slots.set i (slot.closed next)).filter Slot.isData =
      (w.slots.filter Slot.isData).set (w.itemRank i) (slot.closed next) := filter_set hi hd hd'
  rw [data, hrank]
  simp only [relabel, finishGroup, hset, List.map_set]
  rfl

theorem data_close {w : Walk} (h : w.Nested) {level : Nat} {s : Scope}
    (hs : nextScope? level w.groups w.overlays = some s) :
    (w.close s).data = w.data.close (s.relabel w.itemRank) := by
  cases s with
  | overlay overlay outer => rfl
  | group group outer =>
    obtain ⟨slot, hi, hgroup, -⟩ := h.start_le_cursor hs
    have hc : slot.field.isCondition = false := Field.isCondition_of_isGroup hgroup
    have hb : w.data.behindGroup? (slot.relabel w.itemRank) = w.behindGroup? slot := rfl
    rw [close, closeGroup_of_some outer hi, Scope.relabel, close,
      closeGroup_of_some _ (getElem?_data hi hc), hb]
    dsimp only
    have hslots := slots_bound w (w.behindGroup? slot) slot.field.name group.span
    have hbound := bound_relabel w.itemRank w (w.behindGroup? slot) slot.field.name group.span
    generalize w.bound (w.behindGroup? slot) slot.field.name group.span = bounded at hslots hbound ⊢
    obtain ⟨next, v⟩ := bounded
    dsimp only at hslots hbound ⊢
    have hv : v.itemRank = w.itemRank := by rw [itemRank, itemRank, hslots]
    have hfinish := data_finishGroup (hslots ▸ hi) hc next outer
    rw [hv] at hfinish
    have hdata : w.data.bound (w.behindGroup? slot) (slot.relabel w.itemRank).field.name
        (group.relabel w.itemRank).span = (next, v.data) := by
      have hvd : v.data = v.relabel w.itemRank := by rw [data, hv]
      rw [hvd]
      exact hbound
    rw [hfinish, hdata]
    rfl

theorem data_closeScopes {w : Walk} (h : w.Nested) (level : Nat) :
    (w.closeScopes level).data = w.data.closeScopes level := by
  induction hd : w.depth using Nat.strongRecOn generalizing w with
  | _ n ih =>
    have hv : nextScope? level w.data.groups w.data.overlays =
        (nextScope? level w.groups w.overlays).map (Scope.relabel w.itemRank) :=
      nextScope?_relabel _ _ _ _
    cases hs : nextScope? level w.groups w.overlays with
    | none =>
      rw [hs, Option.map_none] at hv
      rw [closeScopes_of_none hs, closeScopes_of_none hv]
    | some s =>
      rw [hs, Option.map_some] at hv
      have hlt : (w.close s).depth < w.depth :=
        depth_closeScope? (by rw [closeScope?_eq, hs]; rfl)
      rw [closeScopes_of_some hs, closeScopes_of_some hv, ← data_close h hs]
      exact ih _ (hd ▸ hlt) (h.close hs) rfl

/-! ## Adding slots -/

/-- A slot at the end gives no earlier slot another index. -/
theorem itemRank_append {w u : Walk} {slot : Slot} (hs : u.slots = w.slots ++ [slot]) {i : Nat}
    (hi : i ≤ w.slots.length) : u.itemRank i = w.itemRank i := by
  rw [itemRank, hs, rank_append_of_le _ hi]
  rfl

theorem InRange.data_push {w : Walk} (h : w.InRange) (field : Field)
    (hc : field.isCondition = false) (hl : field.LinksBelow w.slots.length) (span : Span) :
    (w.push field span).data = w.data.push (field.relabel w.itemRank id) span := by
  have hr : ∀ i, i < w.slots.length → (w.push field span).itemRank i = w.itemRank i :=
    fun i hi => itemRank_append (slots_push w field span) (Nat.le_of_lt hi)
  have hd : Slot.isData ⟨field, w.cursor, span⟩ = true := isData_iff.2 hc
  have hslots : (w.slots ++ [(⟨field, w.cursor, span⟩ : Slot)]).filter Slot.isData =
      w.slots.filter Slot.isData ++ [⟨field, w.cursor, span⟩] := by
    rw [List.filter_append, List.filter_cons_of_pos hd, List.filter_nil]
  have hdata : (w.push field span).data =
      (w.relabel (w.push field span).itemRank).push
        (field.relabel (w.push field span).itemRank id) span := by
    simp only [data, relabel, push, hslots, List.map_append]
    rfl
  rw [hdata, h.relabel_congr hr, hl.relabel_congr hr]
  rfl

/-- Condition names leave the data items as they are. -/
theorem InRange.data_push_condition {w : Walk} (h : w.InRange) {field : Field}
    (hc : field.isCondition = true) (span : Span) : (w.push field span).data = w.data := by
  have hr : ∀ i, i < w.slots.length → (w.push field span).itemRank i = w.itemRank i :=
    fun i hi => itemRank_append (slots_push w field span) (Nat.le_of_lt hi)
  have hd : ¬ Slot.isData ⟨field, w.cursor, span⟩ = true := by
    simp [Slot.isData, Field.isData, hc]
  have hslots : (w.slots ++ [(⟨field, w.cursor, span⟩ : Slot)]).filter Slot.isData =
      w.slots.filter Slot.isData := by
    rw [List.filter_append, List.filter_cons_of_neg hd, List.filter_nil, List.append_nil]
  have hdata : (w.push field span).data = w.relabel (w.push field span).itemRank := by
    simp only [data, relabel, push, hslots]
  rw [hdata, h.relabel_congr hr]
  rfl

theorem InRange.data_addGroup {w : Walk} (h : w.InRange) {field : Field}
    (hc : field.isCondition = false) (hl : field.LinksBelow w.slots.length)
    (d : Entry.Descriptor) (entry : Entry) (usage : Option String) :
    (w.addGroup d entry field usage).data =
      w.data.addGroup d entry (field.relabel w.itemRank id) usage := by
  have hpush := h.data_push (field.setExtent w.cursor w.cursor) hc hl entry.span
  have hindex : (w.push (field.setExtent w.cursor w.cursor) entry.span).itemRank w.slots.length =
      w.data.slots.length :=
    (itemRank_append (slots_push w _ _) (Nat.le_refl _)).trans (length_data w).symm
  have hdata : (w.addGroup d entry field usage).data =
      { (w.push (field.setExtent w.cursor w.cursor) entry.span).data with
        groups := ⟨(w.push (field.setExtent w.cursor w.cursor) entry.span).itemRank w.slots.length,
          d.level, entry.span, usage⟩ ::
          (w.push (field.setExtent w.cursor w.cursor) entry.span).data.groups } := rfl
  rw [hdata, hpush, hindex]
  rfl

theorem InRange.data_finishElementary {w : Walk} (h : w.InRange) (field : Field)
    (hc : field.isCondition = false) (hl : field.LinksBelow w.slots.length) (span : Span)
    (next : Nat) : (w.finishElementary field span next).data =
      w.data.finishElementary (field.relabel w.itemRank id) span next := by
  let v : Walk := { w with cursor := max w.cursor next }
  have hv : v.InRange := ⟨h.links, h.group, h.overlay, h.shared, h.last⟩
  have hpush := hv.data_push (field.place w.cursor (next - w.cursor)) hc hl span
  have hindex : (v.push (field.place w.cursor (next - w.cursor)) span).itemRank w.slots.length =
      w.data.slots.length :=
    (itemRank_append (slots_push v _ _) (Nat.le_refl _)).trans (length_data w).symm
  have hdata : (w.finishElementary field span next).data =
      { (v.push (field.place w.cursor (next - w.cursor)) span).data with
        lastElementary := some
          ((v.push (field.place w.cursor (next - w.cursor)) span).itemRank w.slots.length) } := rfl
  rw [hdata, hpush, hindex]
  rfl

/-! ## Declaring -/

/-- What a name refers to is a data item. -/
theorem target?_data (w : Walk) (name : String) :
    w.data.target? name = (w.target? name).map w.itemRank := by
  rw [target?_eq, target?_eq, fields_data, latestNamed_dataFields, itemRank_eq]

theorem lookup_relabel {shared : List (Nat × Nat)} {r : Nat → Nat} {base : Nat}
    (h : ∀ x ∈ shared, r x.1 = r base → x.1 = base) :
    (shared.map fun x => (r x.1, x.2)).lookup (r base) = shared.lookup base := by
  induction shared with
  | nil => rfl
  | cons x rest ih =>
    have hrest := ih fun y hy => h y (List.mem_cons_of_mem _ hy)
    rw [List.map_cons, List.lookup_cons, List.lookup_cons, hrest]
    by_cases hx : x.1 = base
    · simp [hx]
    · have hr : ¬ r x.1 = r base := fun he => hx (h x List.mem_cons_self he)
      rw [beq_false_of_ne (Ne.symm hx), beq_false_of_ne (Ne.symm hr)]

/-- The storage of a data item. -/
theorem Rooted.baseOf_data {w : Walk} (h : w.Rooted) {i : Nat} (hi : w.HasData i) :
    baseOf w.data.fields (w.itemRank i) = w.itemRank (baseOf w.fields i) ∧
      w.HasData (baseOf w.fields i) := by
  constructor
  · rw [fields_data, itemRank_eq, baseOf_dataFields id h.linked.links (hasData_iff.1 hi)]
  · exact hasData_iff.2 (h.linked.links.hasData_baseOf (hasData_iff.1 hi))

theorem itemRank_injective {w : Walk} {i j : Nat} (hi : w.HasData i) (hj : w.HasData j)
    (h : w.itemRank i = w.itemRank j) : i = j := by
  rw [itemRank_eq] at h
  exact dataRank_injective (hasData_iff.1 hi) (hasData_iff.1 hj) h

theorem relabel_enterOverlay {r : Nat → Nat} (w : Walk) (level : Nat) {base : Nat}
    {target baseSlot : Slot} (h : (w.relabel r).shared.lookup (r base) = w.shared.lookup base) :
    (w.enterOverlay level base target baseSlot).relabel r =
      (w.relabel r).enterOverlay level (r base) (target.relabel r) (baseSlot.relabel r) := by
  unfold enterOverlay
  rw [h]
  rfl

theorem Rooted.redefine_data {w : Walk} (h : w.Rooted) (rules : Rules) (d : Entry.Descriptor)
    (span : Span) : w.data.redefine rules d span =
      ((w.redefine rules d span).1.map w.itemRank,
        (w.redefine rules d span).2.relabel w.itemRank) := by
  unfold redefine
  cases d.redefines with
  | none => rfl
  | some name =>
    dsimp only
    split
    · unfold openOverlay
      rw [target?_data]
      cases ht : w.target? name with
      | none => rfl
      | some i =>
        obtain ⟨target, hi⟩ : ∃ target, w.slots[i]? = some target :=
          ⟨_, List.getElem?_eq_getElem (target?_lt ht)⟩
        have hc := isCondition_of_target? ht hi
        obtain ⟨hbase, hdata⟩ := h.baseOf_data ⟨target, hi, hc⟩
        have hlookup : w.data.shared.lookup (w.itemRank (baseOf w.fields i)) =
            w.shared.lookup (baseOf w.fields i) :=
          lookup_relabel fun x hx => itemRank_injective (h.shared_base x hx) hdata
        obtain ⟨baseSlot, hb, hbc⟩ := hdata
        have hfields : ∀ (u : Walk) (e : Diagnostic), (u.report e).fields = u.fields :=
          fun _ _ => rfl
        have hlevel : (target.relabel w.itemRank).field.level = target.field.level := rfl
        simp only [Option.map_some, getElem?_data hi hc, hbase, getElem?_data hb hbc, hi, hb,
          hlevel]
        split
        · rw [hfields, hfields, hbase]
          exact congrArg (Prod.mk _) (relabel_enterOverlay (w.report _) d.level hlookup).symm
        · rw [hbase]
          exact congrArg (Prod.mk _) (relabel_enterOverlay w d.level hlookup).symm
    · rfl

theorem resolveUsage_relabel (r : Nat → Nat) (w : Walk) (rules : Rules) (usage : Option String)
    (name : String) (span : Span) : (w.relabel r).resolveUsage rules usage name span =
      ((w.resolveUsage rules usage name span).1,
        (w.resolveUsage rules usage name span).2.relabel r) := by
  unfold resolveUsage
  cases rules.usages.resolve usage <;> rfl

theorem InRange.of_agrees {w v : Walk} (h : w.InRange) (ha : Agrees v w) : v.InRange := by
  refine ⟨?_, ?_, ?_, ?_, ?_⟩
  · rw [ha.slots_eq]
    exact h.links
  · rw [ha.slots_eq, ha.groups_eq]
    exact h.group
  · rw [ha.slots_eq, ha.overlays_eq]
    exact h.overlay
  · rw [ha.slots_eq, ha.shared_eq]
    exact h.shared
  · rw [ha.slots_eq, ha.last_eq]
    exact h.last

/-- Going back to storage that is laid out again leaves all indices in range. -/
theorem Rooted.inRange_redefine {w : Walk} (h : w.Rooted) (hn : w.Nested) (rules : Rules)
    (x : Declaration) :
    (w.redefine rules x.descriptor x.entry.span).2.InRange ∧
      (w.fieldOf x (w.redefine rules x.descriptor x.entry.span).1).LinksBelow w.slots.length := by
  obtain ⟨v, hv, ha⟩ := rewinds_redefine rules x.descriptor x.entry.span w
  obtain ⟨hs, hg, hsh, hl, -⟩ := hv.eqs
  have hw := h.inRange hn
  constructor
  · have hvr : v.InRange := by
      refine ⟨hs ▸ hw.links, ?_, fun o ho => ?_, ?_, ?_⟩
      · rw [hs, hg]
        exact hw.group
      · rw [hs]
        exact (h.overlay_base_of_rewinds hv o ho).lt
      · rw [hs, hsh]
        exact hw.shared
      · rw [hs, hl]
        exact hw.last
    exact hvr.of_agrees ha
  · constructor
    · intro p hp
      obtain ⟨g, hgroup, rfl⟩ := Option.map_eq_some_iff.1 hp
      exact hw.group g (List.mem_of_mem_head? hgroup)
    · intro t ht
      have ht' : (w.redefine rules x.descriptor x.entry.span).1 = some t := ht
      rw [ht'] at hv
      cases hv with
      | back _ named _ _ => exact target?_lt named

theorem fieldOf_data (w : Walk) (x : Declaration) (target : Option Nat) :
    w.data.fieldOf x (target.map w.itemRank) =
      (w.fieldOf x target).relabel w.itemRank id := by
  have hparent : w.data.groups.head?.map (·.index) =
      (w.groups.head?.map (·.index)).map w.itemRank := by
    simp only [data, relabel]
    cases w.groups <;> rfl
  unfold fieldOf
  rw [hparent]
  unfold Field.ofDescriptor
  cases x.descriptor.shape <;> rfl

theorem usageOf_data (w : Walk) (d : Entry.Descriptor) : w.data.usageOf d = w.usageOf d := by
  simp only [usageOf, data, relabel]
  cases w.groups <;> rfl

/-- An elementary item can be added among the data items alone. -/
theorem InRange.data_addElementary {w : Walk} (h : w.InRange) {field : Field}
    (hc : field.isCondition = false) (hl : field.LinksBelow w.slots.length) (rules : Rules)
    (d : Entry.Descriptor) (entry : Entry) (usage : Option String) :
    (w.addElementary rules d entry field usage).data =
      w.data.addElementary rules d entry (field.relabel w.itemRank id) usage := by
  have hdata : w.data = w.relabel w.itemRank := rfl
  have hr := Agrees.resolveUsage rules usage d.name entry.span w
  rw [addElementary_eq, addElementary_eq, hdata, resolveUsage_relabel]
  dsimp only
  generalize w.resolveUsage rules usage d.name entry.span = resolved at hr ⊢
  obtain ⟨encoding, u⟩ := resolved
  dsimp only at hr ⊢
  have hcursor : (u.relabel w.itemRank).cursor = u.cursor := rfl
  rw [hcursor, bound_relabel]
  have hb := Agrees.bound u (Storage.add? u.cursor (Storage.length .elementary d.shape encoding
    d.occurs)) d.name entry.span
  generalize u.bound (Storage.add? u.cursor (Storage.length .elementary d.shape encoding d.occurs))
    d.name entry.span = bounded at hb ⊢
  obtain ⟨next, b⟩ := bounded
  dsimp only at hb ⊢
  have hbw := hb.trans hr
  have hrank : b.itemRank = w.itemRank := by rw [itemRank, itemRank, hbw.slots_eq]
  have hfinish := (h.of_agrees hbw).data_finishElementary
    { field with usage := usage, encoding := encoding } hc (hbw.slots_eq ▸ hl) entry.span next
  rw [hfinish, data, hrank]
  rfl

/-- A declaration can be made among the data items alone. -/
theorem Rooted.data_declare {w : Walk} (h : w.Rooted) (hn : w.Nested) (rules : Rules)
    {x : Declaration} (hk : x.descriptor.kind ≠ .condition) :
    (w.declare rules x).data = w.data.declare rules x := by
  have hslots := slots_redefine rules x.descriptor x.entry.span w
  obtain ⟨hrange, hlinks⟩ := h.inRange_redefine hn rules x
  have hc : (w.fieldOf x (w.redefine rules x.descriptor x.entry.span).1).isCondition = false := by
    rw [Field.isCondition, kind_fieldOf]
    simpa using hk
  unfold declare
  simp only [h.redefine_data, fieldOf_data, usageOf_data]
  generalize w.redefine rules x.descriptor x.entry.span = opened at hslots hrange hlinks hc ⊢
  obtain ⟨target, v⟩ := opened
  dsimp only at hslots hrange hlinks hc ⊢
  rw [← hslots] at hlinks
  have hrank : v.itemRank = w.itemRank := by rw [itemRank, itemRank, hslots]
  have hdata : v.relabel w.itemRank = v.data := by rw [data, hrank]
  rw [hdata, ← hrank]
  cases hd : x.descriptor.kind with
  | condition => exact absurd hd hk
  | group => exact hrange.data_addGroup hc hlinks x.descriptor x.entry (w.usageOf x.descriptor)
  | elementary =>
    exact hrange.data_addElementary hc hlinks rules x.descriptor x.entry (w.usageOf x.descriptor)

end Walk

end Record

end DataDivision
