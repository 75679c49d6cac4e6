import DataDivision.Proofs.Record.Conditions
import DataDivision.Proofs.Record.Laying

/-!
A walk lays a forest out.

The walk keeps open scopes on two stacks and moves one cursor back and forth, while the stages of
`Laid` know only the siblings so far.  Between two siblings both have the same slots and the same
position (`Matches`), because every scope that the first of them has opened is closed again.
-/

namespace DataDivision.Record.Walk

/-! ## Stages of a walk -/

/-- What the walk knows of a sibling; `lo` is where the siblings begin. -/
structure HasSibling (w : Walk) (lo : Nat) (s : Sibling) : Prop where
  base_eq : baseOf w.fields s.index = s.base
  lo_le : lo ≤ s.base
  own : ∃ slot, w.slots[s.index]? = some slot ∧ slot.limit ≤ w.cursor
  base : ∃ slot, w.slots[s.base]? = some slot ∧ slot.field.startPosition = s.start ∧
    slot.limit ≤ w.cursor

/-- The walk is at a stage among siblings that begin at the slot `lo`, behind the given entries. -/
structure Matches (w : Walk) (lo : Nat) (earlier : List (String × Bool)) (σ : Stage) : Prop where
  slots_eq : w.slots = σ.slots
  cursor_eq : w.cursor = σ.cursor
  lo_le : lo ≤ w.slots.length
  /-- A name of a sibling refers to that sibling. -/
  named : ∀ name e, earlier.find? (fun e => Text.sameIgnoringCase e.1 name) = some e →
    e.2 = true → ∃ s, σ.siblings.find? (fun s => Text.sameIgnoringCase s.name name) = some s ∧
      latestNamed w.fields name = some s.index
  siblings : ∀ s ∈ σ.siblings, w.HasSibling lo s
  shared_lt : ∀ p ∈ w.shared, p.1 < w.slots.length
  /-- No layout of a sibling's storage reaches further than the cursor. -/
  shared_le : ∀ p ∈ w.shared, lo ≤ p.1 → p.2 ≤ w.cursor

theorem HasSibling.append {w u : Walk} {lo : Nat} {s : Sibling} {new : List Slot}
    (h : w.HasSibling lo s) (hs : u.slots = w.slots ++ new) (hc : w.cursor ≤ u.cursor) :
    u.HasSibling lo s := by
  obtain ⟨slot, hi, hl⟩ := h.own
  obtain ⟨base, hb, hstart, hl'⟩ := h.base
  have hlt : s.index < w.slots.length := (List.getElem?_eq_some_iff.1 hi).1
  have hlt' : s.base < w.slots.length := (List.getElem?_eq_some_iff.1 hb).1
  refine ⟨?_, h.lo_le, ⟨slot, ?_, Nat.le_trans hl hc⟩, ⟨base, ?_, hstart, Nat.le_trans hl' hc⟩⟩
  · rw [← h.base_eq, fields, hs]
    exact (LinksKept.append w.slots new).baseOf_eq hlt
  · rw [hs, List.getElem?_append_left hlt, hi]
  · rw [hs, List.getElem?_append_left hlt', hb]

/-- The sibling that a redefinition redefines is one of those before. -/
theorem mem_of_redefined? {σ : Stage} {d : Declaration} {s : Sibling}
    (h : σ.redefined? d = some s) : s ∈ σ.siblings := by
  obtain ⟨name, -, hf⟩ := Option.bind_eq_some_iff.1 h
  exact List.mem_of_find?_eq_some hf

/-- A declaration, with what it holds, has been added to the walk `w` at the stage `σ`. -/
structure Adds (w u : Walk) (σ : Stage) (d : Declaration) (items : Forest) (width : Nat)
    (slot : Slot) (new : List Slot) : Prop where
  slots_eq : u.slots = w.slots ++ slot :: new
  groups_eq : u.groups = w.groups
  overlays_eq : u.overlays = w.overlays
  cursor_eq : u.cursor = max w.cursor (σ.start d + width)
  limit_eq : slot.limit = σ.start d + width
  declares : slot.Declares d (w.groups.head?.map (·.index)) ((σ.redefined? d).map (·.index))
    (σ.start d)
  shared_of_mem : ∀ p ∈ u.shared, p ∈ w.shared ∨ p.1 < u.slots.length ∧ p.2 ≤ u.cursor
  latest_eq : ∀ name, (∀ x ∈ items.toList, Text.sameIgnoringCase x.name name = false) →
    latestNamed u.fields name = latestNamed (w.fields ++ [slot.field]) name

section Adding

variable {w u : Walk} {lo : Nat} {earlier : List (String × Bool)} {σ : Stage} {d : Declaration}
  {items : Forest} {width : Nat} {slot : Slot} {new : List Slot}

theorem Adds.cursor_le (h : Adds w u σ d items width slot new) : w.cursor ≤ u.cursor := by
  rw [h.cursor_eq]
  exact Nat.le_max_left _ _

/-- A declaration that has been added becomes a sibling. -/
theorem Adds.hasSibling (h : Adds w u σ d items width slot new) (hm : w.Matches lo earlier σ) :
    u.HasSibling lo (σ.sibling d width) := by
  have hi : u.slots[σ.slots.length]? = some slot := by
    rw [h.slots_eq, ← hm.slots_eq]
    simp
  have hle : slot.limit ≤ u.cursor := by
    rw [h.limit_eq, h.cursor_eq]
    exact Nat.le_max_right _ _
  have ht : targetOf u.fields σ.slots.length = (σ.redefined? d).map (·.index) := by
    simp [targetOf, fields, hi, h.declares.target_eq]
  cases hr : σ.redefined? d with
  | none =>
    rw [hr] at ht
    have hbase : (σ.sibling d width).base = σ.slots.length := by simp [Stage.sibling, hr]
    refine ⟨?_, ?_, ⟨slot, hi, hle⟩, ⟨slot, by rw [hbase, hi], h.declares.start_eq, hle⟩⟩
    · rw [hbase]
      exact baseOf_of_target_none ht
    · rw [hbase, ← hm.slots_eq]
      exact hm.lo_le
  | some s =>
    rw [hr] at ht
    have hmem := hm.siblings s (mem_of_redefined? hr)
    have hsib := hmem.append h.slots_eq h.cursor_le
    obtain ⟨own, ho, -⟩ := hmem.own
    have hlt : s.index < σ.slots.length := by
      rw [← hm.slots_eq]
      exact (List.getElem?_eq_some_iff.1 ho).1
    have hbase : (σ.sibling d width).base = s.base := by simp [Stage.sibling, hr]
    have hstart : (σ.sibling d width).start = s.start := by simp [Stage.sibling, Stage.start, hr]
    refine ⟨?_, ?_, ⟨slot, hi, hle⟩, ?_⟩
    · rw [hbase, ← hsib.base_eq]
      exact baseOf_of_target_some ht hlt
    · rw [hbase]
      exact hsib.lo_le
    · rw [hbase, hstart]
      exact hsib.base

/-- The walk behind a declaration knows the names of the siblings. -/
theorem Adds.named (h : Adds w u σ d items width slot new) (hm : w.Matches lo earlier σ)
    (hk : d.descriptor.kind ≠ .condition) (name : String) (e : String × Bool)
    (he : (Forest.behindGroup d items earlier).find?
      (fun e => Text.sameIgnoringCase e.1 name) = some e) (hs : e.2 = true) :
    ∃ s, (σ.sibling d width :: σ.siblings).find?
        (fun s => Text.sameIgnoringCase s.name name) = some s ∧
      latestNamed u.fields name = some s.index := by
  have hkind : slot.field.isCondition = false := by
    simpa [Field.isCondition, h.declares.kind_eq] using hk
  rw [Forest.behindGroup, List.find?_append] at he
  cases hf : (items.toList.reverse.map fun x => (x.name, false)).find?
      (fun e => Text.sameIgnoringCase e.1 name) with
  | some e' =>
    -- What the group holds is no sibling.
    rw [hf] at he
    cases he
    obtain ⟨x, -, rfl⟩ := List.mem_map.1 (List.mem_of_find?_eq_some hf)
    cases hs
  | none =>
    rw [hf, Option.none_or, List.find?_cons] at he
    have hnone : ∀ x ∈ items.toList, Text.sameIgnoringCase x.name name = false := by
      intro x hx
      have := List.find?_eq_none.1 hf (x.name, false) (by simpa using ⟨x, hx, rfl⟩)
      simpa using this
    rw [h.latest_eq name hnone, latestNamed_append, hkind, h.declares.name_eq, List.find?_cons]
    cases hsame : Text.sameIgnoringCase d.name name with
    | true =>
      have hname : Text.sameIgnoringCase (σ.sibling d width).name name = true := hsame
      refine ⟨_, by rw [hname], ?_⟩
      simp [fields, hm.slots_eq, Stage.sibling]
    | false =>
      rw [hsame] at he
      have hname : Text.sameIgnoringCase (σ.sibling d width).name name = false := hsame
      obtain ⟨s, hfs, hls⟩ := hm.named name e he hs
      exact ⟨s, by rw [hname]; exact hfs, by simpa using hls⟩

/-- The walk behind a declaration is at the next stage. -/
theorem Adds.matches (h : Adds w u σ d items width slot new) (hm : w.Matches lo earlier σ)
    (hk : d.descriptor.kind ≠ .condition) :
    u.Matches lo (Forest.behindGroup d items earlier) (σ.join d width u.slots) := by
  have hlen : w.slots.length < u.slots.length := by simp [h.slots_eq]
  have hlo := hm.lo_le
  refine ⟨rfl, by rw [h.cursor_eq, hm.cursor_eq]; rfl, by omega, h.named hm hk, ?_, ?_, ?_⟩
  · intro s hs
    rcases List.mem_cons.1 hs with rfl | hs
    · exact h.hasSibling hm
    · exact (hm.siblings s hs).append h.slots_eq h.cursor_le
  · intro p hp
    rcases h.shared_of_mem p hp with hp | ⟨hp, -⟩
    · have := hm.shared_lt p hp
      omega
    · exact hp
  · intro p hp hle
    rcases h.shared_of_mem p hp with hp | ⟨-, hp⟩
    · exact Nat.le_trans (hm.shared_le p hp hle) h.cursor_le
    · exact hp

end Adding

/-! ## Opening and closing a redefinition -/

/-- The overlays that a declaration opens: none, or one behind which the position `p` is met again.
-/
def IsPending (w : Walk) (level p start : Nat) (pending : List OpenOverlay) : Prop :=
  pending = [] ∧ p ≤ start ∨
    ∃ base, base < w.slots.length ∧ pending = [⟨level, base, p⟩]

/-- The walk `v` differs from `w` by the overlays of a declaration that starts at the cursor. -/
structure Opens (w v : Walk) (start : Nat) (pending : List OpenOverlay) : Prop where
  slots_eq : v.slots = w.slots
  groups_eq : v.groups = w.groups
  overlays_eq : v.overlays = pending ++ w.overlays
  shared_eq : v.shared = w.shared
  cursor_eq : v.cursor = start

/-- A declaration among siblings starts where its stage says. -/
theorem Matches.exists_opens {rules : Rules} {w : Walk} {lo : Nat}
    {earlier : List (String × Bool)} {σ : Stage} {d : Declaration}
    (hr : rules.config.fieldProcessing.processRedefines = true) (h : w.Matches lo earlier σ)
    (hd : d.RedefinesSibling earlier) :
    ∃ v pending, w.redefine rules d.descriptor d.entry.span =
        ((σ.redefined? d).map (·.index), v) ∧
      Opens w v (σ.start d) pending ∧
      w.IsPending d.descriptor.level w.cursor (σ.start d) pending := by
  cases hn : d.descriptor.redefines with
  | none =>
    have hnone : σ.redefined? d = none := by simp [Stage.redefined?, hn]
    have hstart : σ.start d = w.cursor := by simp [Stage.start, hnone, h.cursor_eq]
    refine ⟨w, [], by simp [redefine, hn, hnone], ?_, .inl ⟨rfl, by omega⟩⟩
    exact ⟨rfl, rfl, rfl, rfl, hstart.symm⟩
  | some name =>
    obtain ⟨e, he, hm⟩ := hd name hn
    obtain ⟨s, hf, ht⟩ := h.named name e he hm
    have hsome : σ.redefined? d = some s := by simp [Stage.redefined?, hn, hf]
    have hstart : σ.start d = s.start := by simp [Stage.start, hsome]
    have hsib := h.siblings s (List.mem_of_find?_eq_some hf)
    obtain ⟨target, hi, hl⟩ := hsib.own
    obtain ⟨base, hb, hs, hl'⟩ := hsib.base
    rw [← hsib.base_eq] at hb
    obtain ⟨v, hv, hred⟩ := redefine_of_target d.entry.span hr hn
      ((target?_eq w name).trans ht) hi hb
    -- Everything of this storage ends at the cursor or before, so the cursor is met again.
    have hresume : max (max (max ((w.shared.lookup (baseOf w.fields s.index)).getD 0)
        target.limit) base.limit) w.cursor = w.cursor := by
      have hshared : (w.shared.lookup (baseOf w.fields s.index)).getD 0 ≤ w.cursor := by
        cases hlook : w.shared.lookup (baseOf w.fields s.index) with
        | none => exact Nat.zero_le _
        | some n =>
          obtain ⟨_, _, hsplit, -⟩ := List.lookup_eq_some_iff.1 hlook
          refine h.shared_le (baseOf w.fields s.index, n) ?_ ?_
          · rw [hsplit]
            simp
          · rw [hsib.base_eq]
            exact hsib.lo_le
      omega
    have hlt : baseOf w.fields s.index < w.slots.length := (List.getElem?_eq_some_iff.1 hb).1
    refine ⟨_, [⟨d.descriptor.level, baseOf w.fields s.index, w.cursor⟩],
      by rw [hred, hsome]; rfl, ?_, .inr ⟨_, hlt, rfl⟩⟩
    obtain rfl | ⟨e, -, rfl⟩ := hv
    · refine ⟨rfl, rfl, ?_, rfl, by rw [hstart, ← hs]; rfl⟩
      simp only [enterOverlay, hresume, List.singleton_append]
    · refine ⟨rfl, rfl, ?_, rfl, by rw [hstart, ← hs]; rfl⟩
      simp only [enterOverlay, report, hresume, List.singleton_append]

/-- The walk `v` is `u` with the overlays of a declaration closed again. -/
structure Settles (w u v : Walk) : Prop where
  slots_eq : v.slots = u.slots
  groups_eq : v.groups = w.groups
  overlays_eq : v.overlays = w.overlays
  cursor_eq : v.cursor = max w.cursor u.cursor
  shared_of_mem : ∀ p ∈ v.shared, p ∈ u.shared ∨ p.1 < w.slots.length ∧ p.2 ≤ v.cursor

/-- Closing a level behind a declaration closes the overlay of the declaration alone. -/
theorem settles_closeScopes {w u : Walk} {level start : Nat} {pending : List OpenOverlay}
    (hn : nextScope? level w.groups w.overlays = none)
    (hp : w.IsPending level w.cursor start pending) (hg : u.groups = w.groups)
    (ho : u.overlays = pending ++ w.overlays) (hs : start ≤ u.cursor) :
    Settles w u (u.closeScopes level) := by
  rcases hp with ⟨rfl, hle⟩ | ⟨base, hb, rfl⟩
  · have hu : nextScope? level u.groups u.overlays = none := by rwa [hg, ho]
    rw [closeScopes_of_none hu]
    exact ⟨rfl, hg, ho, by omega, fun p hp => .inl hp⟩
  · have hdue : nextScope? level u.groups u.overlays =
        some (.overlay ⟨level, base, w.cursor⟩ w.overlays) := by
      refine nextScope?_eq_overlay_iff.2 ⟨by rw [ho]; rfl, Nat.le_refl _, ?_⟩
      rw [hg]
      exact (nextScope?_eq_none_iff.1 hn).1
    have hrest : nextScope? level (u.closeOverlay ⟨level, base, w.cursor⟩ w.overlays).groups
        (u.closeOverlay ⟨level, base, w.cursor⟩ w.overlays).overlays = none := by
      simp only [closeOverlay, hg]
      exact hn
    rw [closeScopes_of_some hdue, close, closeScopes_of_none hrest]
    refine ⟨rfl, hg, rfl, ?_, ?_⟩
    · simp only [closeOverlay]
      omega
    · intro p hm
      rcases List.mem_cons.1 hm with rfl | hm
      · exact .inr ⟨hb, Nat.le_refl _⟩
      · exact .inl hm

/-- A declaration whose own scopes are all that is left open has been added once they are closed. -/
theorem adds_closeScopes {w u : Walk} {level : Nat} {pending : List OpenOverlay} {σ : Stage}
    {d : Declaration} {items : Forest} {width : Nat} {slot : Slot} {new : List Slot}
    (hn : nextScope? level w.groups w.overlays = none)
    (hp : w.IsPending level w.cursor (σ.start d) pending)
    (hs : u.slots = w.slots ++ slot :: new) (hg : u.groups = w.groups)
    (ho : u.overlays = pending ++ w.overlays) (hc : u.cursor = σ.start d + width)
    (hl : slot.limit = σ.start d + width)
    (hd : slot.Declares d (w.groups.head?.map (·.index)) ((σ.redefined? d).map (·.index))
      (σ.start d))
    (hsh : ∀ p ∈ u.shared, p ∈ w.shared ∨ p.1 < u.slots.length ∧ p.2 ≤ u.cursor)
    (hlat : ∀ name, (∀ x ∈ items.toList, Text.sameIgnoringCase x.name name = false) →
      latestNamed u.fields name = latestNamed (w.fields ++ [slot.field]) name) :
    Adds w (u.closeScopes level) σ d items width slot new := by
  have hset := settles_closeScopes hn hp hg ho (by omega)
  have hcursor := hset.cursor_eq
  rw [hc] at hcursor
  refine ⟨hset.slots_eq.trans hs, hset.groups_eq, hset.overlays_eq, hcursor, hl, hd, ?_, ?_⟩
  · intro p hm
    have hlen : w.slots.length < u.slots.length := by simp [hs]
    rw [hset.slots_eq]
    rcases hset.shared_of_mem p hm with hm | ⟨hlt, hle⟩
    · rcases hsh p hm with hm | ⟨hlt, hle⟩
      · exact .inl hm
      · exact .inr ⟨hlt, by omega⟩
    · exact .inr ⟨by omega, hle⟩
  · intro name hname
    rw [fields, hset.slots_eq]
    exact hlat name hname

/-! ## Adding a declaration -/

/-- An elementary item that fits gets the bytes of its length. -/
theorem addElementary_of_fits {rules : Rules} {d : Entry.Descriptor} {entry : Entry}
    {field : Field} {usage : Option String} {w : Walk}
    (h : (w.addElementary rules d entry field usage).tooLarge = false) :
    ∃ v, (v = w ∨ ∃ e : Diagnostic, e.IsPlain ∧ v = w.report e) ∧
      w.addElementary rules d entry field usage =
        v.finishElementary
          { field with usage := usage, encoding := (rules.usages.resolve usage).getD .character }
          entry.span (w.cursor + Storage.length .elementary d.shape
            ((rules.usages.resolve usage).getD .character) d.occurs) := by
  rw [addElementary_eq] at h ⊢
  obtain ⟨henc, hv⟩ := resolveUsage_cases rules usage d.name entry.span w
  generalize w.resolveUsage rules usage d.name entry.span = resolved at *
  obtain ⟨encoding, v⟩ := resolved
  dsimp only at henc hv h ⊢
  have hcur : v.cursor = w.cursor := by obtain rfl | ⟨e, -, rfl⟩ := hv <;> rfl
  obtain ⟨n, hn, -, hb⟩ | ⟨-, hb⟩ := bound_cases v (Storage.add? v.cursor
    (Storage.length .elementary d.shape encoding d.occurs)) d.name entry.span
  · have hsum : n = w.cursor + Storage.length .elementary d.shape encoding d.occurs := by
      unfold Storage.add? at hn
      split at hn
      · rw [hcur] at hn
        exact (Option.some.inj hn).symm
      · cases hn
    exact ⟨v, hv, by rw [hb, hsum, henc]⟩
  · rw [hb] at h
    have := tooLarge_overflow v d.name entry.span
    simp only [finishElementary, push] at h
    rw [h] at this
    cases this

section Declaring

variable {rules : Rules} {w : Walk} {lo level : Nat} {earlier : List (String × Bool)} {σ : Stage}
  {d : Declaration}

/-- A declared elementary item is added at the place of its stage. -/
theorem Matches.exists_adds_item
    (hr : rules.config.fieldProcessing.processRedefines = true) (h : w.Matches lo earlier σ)
    (hn : nextScope? level w.groups w.overlays = none) (hl : d.descriptor.level = level)
    (hk : d.descriptor.kind = .elementary) (hd : d.RedefinesSibling earlier)
    (hfit : (w.declare rules d).tooLarge = false) :
    ∃ slot, slot.IsPlaced (σ.start d) (d.width rules (w.groups.head?.bind (·.usage))) ∧
      Adds w ((w.declare rules d).closeScopes level) σ d .nil
        (d.width rules (w.groups.head?.bind (·.usage))) slot [] := by
  obtain ⟨v, pending, hred, ho, hp⟩ := h.exists_opens hr hd
  have hdec : w.declare rules d = v.addElementary rules d.descriptor d.entry
      (w.fieldOf d ((σ.redefined? d).map (·.index))) (w.usageOf d.descriptor) := by
    simp only [declare, hred, hk]
  rw [hdec] at hfit ⊢
  obtain ⟨v', hv', hadd⟩ := addElementary_of_fits hfit
  have hwidth : Storage.length .elementary d.descriptor.shape
      ((rules.usages.resolve (w.usageOf d.descriptor)).getD .character) d.descriptor.occurs =
      d.width rules (w.groups.head?.bind (·.usage)) := rfl
  rw [hwidth, ho.cursor_eq] at hadd
  generalize d.width rules (w.groups.head?.bind (·.usage)) = width at hadd ⊢
  have hv : v'.slots = w.slots ∧ v'.groups = w.groups ∧ v'.overlays = pending ++ w.overlays ∧
      v'.shared = w.shared ∧ v'.cursor = σ.start d := by
    obtain rfl | ⟨e, -, rfl⟩ := hv' <;>
    exact ⟨ho.slots_eq, ho.groups_eq, ho.overlays_eq, ho.shared_eq, ho.cursor_eq⟩
  obtain ⟨hvs, hvg, hvo, hvsh, hvc⟩ := hv
  rw [hadd]
  generalize hf : { w.fieldOf d ((σ.redefined? d).map (·.index)) with
    usage := w.usageOf d.descriptor,
    encoding := (rules.usages.resolve (w.usageOf d.descriptor)).getD .character } = field
  generalize hu : v'.finishElementary field d.entry.span (σ.start d + width) = u
  have hslots : u.slots = w.slots ++
      [⟨field.place (σ.start d) width, σ.start d + width, d.entry.span⟩] := by
    rw [← hu, finishElementary, push, hvs, hvc, Nat.add_sub_cancel_left,
      Nat.max_eq_right (Nat.le_add_right _ _)]
  have hcursor : u.cursor = σ.start d + width := by
    rw [← hu, finishElementary, push, hvc, Nat.max_eq_right (Nat.le_add_right _ _)]
  refine ⟨⟨field.place (σ.start d) width, σ.start d + width, d.entry.span⟩, ⟨rfl, rfl, rfl⟩, ?_⟩
  refine adds_closeScopes hn (hl ▸ hp) hslots (by rw [← hu]; exact hvg) (by rw [← hu]; exact hvo)
    hcursor rfl ?_ ?_ ?_
  · subst hf
    exact ⟨kind_ofDescriptor _ _, name_ofDescriptor _ _, occurs_ofDescriptor _ _, rfl, rfl, rfl⟩
  · intro q hq
    rw [← hu] at hq
    exact .inl (hvsh ▸ hq)
  · intro name _
    rw [fields, hslots, List.map_append]
    rfl

end Declaring

/-! ## Groups -/

/-- The walk `g` has opened the group of a declaration at the stage `σ`. -/
structure Enters (w g : Walk) (σ : Stage) (d : Declaration) (slot : Slot)
    (pending : List OpenOverlay) : Prop where
  declares : slot.Declares d (w.groups.head?.map (·.index)) ((σ.redefined? d).map (·.index))
    (σ.start d)
  isPending : w.IsPending d.descriptor.level w.cursor (σ.start d) pending
  slots_eq : g.slots = w.slots ++ [slot]
  groups_eq : g.groups = ⟨w.slots.length, d.descriptor.level, d.entry.span,
    w.usageOf d.descriptor⟩ :: w.groups
  overlays_eq : g.overlays = pending ++ w.overlays
  shared_eq : g.shared = w.shared
  cursor_eq : g.cursor = σ.start d

/-- The walk `u` behind some siblings is at the stage `σ`. -/
structure Lays (w u : Walk) (f : Forest) (σ : Stage) : Prop where
  slots_eq : u.slots = σ.slots
  cursor_eq : u.cursor = σ.cursor
  groups_eq : u.groups = w.groups
  overlays_eq : u.overlays = w.overlays
  shared_of_mem : ∀ p ∈ u.shared, p ∈ w.shared ∨ p.1 < u.slots.length ∧ p.2 ≤ u.cursor
  latest_eq : ∀ name, (∀ x ∈ f.toList, Text.sameIgnoringCase x.name name = false) →
    latestNamed u.fields name = latestNamed w.fields name

/-- A declared group is entered at the place of its stage. -/
theorem Matches.exists_enters {rules : Rules} {w : Walk} {lo : Nat}
    {earlier : List (String × Bool)} {σ : Stage} {d : Declaration}
    (hr : rules.config.fieldProcessing.processRedefines = true) (h : w.Matches lo earlier σ)
    (hk : d.descriptor.kind = .group) (hd : d.RedefinesSibling earlier) :
    ∃ slot pending, Enters w (w.declare rules d) σ d slot pending := by
  obtain ⟨v, pending, hred, ho, hp⟩ := h.exists_opens hr hd
  have hdec : w.declare rules d = v.addGroup d.descriptor d.entry
      (w.fieldOf d ((σ.redefined? d).map (·.index))) (w.usageOf d.descriptor) := by
    simp only [declare, hred, hk]
  rw [hdec]
  generalize hf : w.fieldOf d ((σ.redefined? d).map (·.index)) = field
  refine ⟨⟨field.setExtent (σ.start d) (σ.start d), σ.start d, d.entry.span⟩, pending, ?_, hp, ?_,
    ?_, ho.overlays_eq, ho.shared_eq, ho.cursor_eq⟩
  · subst hf
    exact ⟨kind_ofDescriptor _ _, name_ofDescriptor _ _, occurs_ofDescriptor _ _, rfl, rfl, rfl⟩
  · simp only [addGroup, push, ho.slots_eq, ho.cursor_eq]
  · simp only [addGroup, ho.slots_eq, push, ho.groups_eq]

section Grouping

variable {rules : Rules} {w g u : Walk} {lo level inner : Nat} {earlier : List (String × Bool)}
  {σ τ : Stage} {d : Declaration} {items : Forest} {slot : Slot} {pending : List OpenOverlay}
  {usage : Option String}

/-- Inside a group there are no siblings at first. -/
theorem Enters.matches (h : Enters w g σ d slot pending) (hm : w.Matches lo earlier σ) :
    g.Matches (w.slots.length + 1) [] (σ.enter d slot) := by
  have hlen : g.slots.length = w.slots.length + 1 := by simp [h.slots_eq]
  refine ⟨?_, h.cursor_eq, by omega, by simp, ?_, ?_, ?_⟩
  · rw [h.slots_eq, hm.slots_eq]
    rfl
  · intro s hs
    cases hs
  · intro p hp
    have := hm.shared_lt p (h.shared_eq ▸ hp)
    omega
  · intro p hp hlo
    have := hm.shared_lt p (h.shared_eq ▸ hp)
    omega

/-- The entries inside a group close nothing but what they have opened themselves. -/
theorem Enters.closeScopes_eq (h : Enters w g σ d slot pending)
    (hn : nextScope? level w.groups w.overlays = none) (hd : d.descriptor.level = level)
    (hl : level < inner) : g.closeScopes inner = g := by
  apply closeScopes_of_none
  rw [h.groups_eq, h.overlays_eq, nextScope?_eq_none_iff]
  constructor
  · rintro _ ⟨⟩
    simp only
    omega
  · rcases h.isPending with ⟨rfl, -⟩ | ⟨base, -, rfl⟩
    · exact fun overlay hm =>
        Nat.lt_trans ((nextScope?_eq_none_iff.1 hn).2 overlay hm) hl
    · rintro _ ⟨⟩
      simp only
      omega

/-- Once the items of a group have been laid out, the group closes first, exactly behind its last
repetition. -/
theorem Lays.closeScopes_eq (h : Lays g u items τ) (hg : Enters w g σ d slot pending)
    (hn : nextScope? level w.groups w.overlays = none) (hd : d.descriptor.level = level)
    (hslot : u.slots[w.slots.length]? = some slot)
    (hfit : (u.closeScopes level).tooLarge = false) :
    u.closeScopes level = (u.finishGroup w.slots.length slot (σ.start d + σ.groupWidth d τ)
      w.groups).closeScopes level := by
  have hdue : nextScope? level u.groups u.overlays = some (.group ⟨w.slots.length,
      d.descriptor.level, d.entry.span, w.usageOf d.descriptor⟩ w.groups) := by
    refine nextScope?_eq_group_iff.2 ⟨by rw [h.groups_eq, hg.groups_eq], Nat.le_of_eq hd.symm, ?_⟩
    rw [h.overlays_eq, hg.overlays_eq]
    rcases hg.isPending with ⟨rfl, -⟩ | ⟨base, -, rfl⟩
    · intro overlay hm
      have := (nextScope?_eq_none_iff.1 hn).2 overlay hm
      simp only
      omega
    · rintro _ ⟨⟩
      exact Nat.le_refl _
  have hbehind : u.behindGroup slot = σ.start d + σ.groupWidth d τ := by
    rw [behindGroup, hg.declares.start_eq, hg.declares.occurs_eq, h.cursor_eq]
    rfl
  rw [closeScopes_of_some hdue, close] at hfit ⊢
  have hle : u.behindGroup slot ≤ Storage.maxRecordLength + 1 := by
    refine Nat.le_of_not_lt fun hlt => ?_
    have hover : (u.closeGroup ⟨w.slots.length, d.descriptor.level, d.entry.span,
        w.usageOf d.descriptor⟩ w.groups).tooLarge = true :=
      tooLarge_closeGroup_of_lt w.groups hslot hlt
    rw [tooLarge_closeScopes level hover] at hfit
    cases hfit
  rw [closeGroup_of_le w.groups hslot hle, hbehind]

/-- A group whose items have been laid out is added at the place of its stage. -/
theorem Lays.exists_adds_group (h : Lays g u items τ) (hg : Enters w g σ d slot pending)
    (hlaid : Laid rules usage (some σ.slots.length) (σ.enter d slot) items τ)
    (hn : nextScope? level w.groups w.overlays = none) (hd : d.descriptor.level = level)
    (hs : w.slots = σ.slots) (hfit : (u.closeScopes level).tooLarge = false) :
    ∃ new, (u.closeScopes level).slots = (σ.leave d slot τ).slots ∧
      Adds w (u.closeScopes level) σ d items (σ.groupWidth d τ)
        (slot.closed (σ.start d + σ.groupWidth d τ)) new := by
  obtain ⟨new, hnew, -⟩ := hlaid.extents_eq
  have hus : u.slots = w.slots ++ [slot] ++ new := by rw [h.slots_eq, hnew, hs]; rfl
  have hslot : u.slots[w.slots.length]? = some slot := by simp [hus]
  rw [h.closeScopes_eq hg hn hd hslot hfit]
  generalize hv : u.finishGroup w.slots.length slot (σ.start d + σ.groupWidth d τ) w.groups = v
  have hvs : v.slots = w.slots ++ slot.closed (σ.start d + σ.groupWidth d τ) :: new := by
    rw [← hv, finishGroup, hus, set_closed]
  have hle : u.cursor ≤ v.cursor := by
    rw [← hv]
    exact Nat.le_max_left _ _
  have hcursor : v.cursor = σ.start d + σ.groupWidth d τ := by
    have hinside := σ.cursor_le_groupWidth d τ
    rw [← h.cursor_eq] at hinside
    rw [← hv, finishGroup]
    dsimp only
    omega
  have hadds : Adds w (v.closeScopes level) σ d items (σ.groupWidth d τ)
      (slot.closed (σ.start d + σ.groupWidth d τ)) new := by
    refine adds_closeScopes hn (hd ▸ hg.isPending) hvs (by rw [← hv]; rfl)
      (by rw [← hv]; exact h.overlays_eq.trans hg.overlays_eq) hcursor rfl ?_ ?_ ?_
    · exact ⟨hg.declares.kind_eq, hg.declares.name_eq, hg.declares.occurs_eq,
        hg.declares.parent_eq, hg.declares.target_eq, hg.declares.start_eq⟩
    · have hlen : v.slots.length = u.slots.length := by rw [← hv, finishGroup, List.length_set]
      have hshared : v.shared = u.shared := by rw [← hv, finishGroup]
      intro p hp
      rcases h.shared_of_mem p (hshared ▸ hp) with hp | ⟨hp, hp'⟩
      · exact .inl (hg.shared_eq ▸ hp)
      · exact .inr ⟨by omega, by omega⟩
    · intro name hname
      have hclosed : v.fields.map (fun f => (f.isCondition, f.name)) =
          u.fields.map fun f => (f.isCondition, f.name) := by
        rw [fields, fields, hvs, hus]
        simp [Slot.closed, Field.isCondition, Field.setExtent]
      have hgf : g.fields = w.fields ++ [slot.field] := by
        rw [fields, fields, hg.slots_eq, List.map_append]
        rfl
      rw [latestNamed_congr name hclosed, h.latest_eq name hname, hgf, latestNamed_append,
        latestNamed_append]
      rfl
  refine ⟨new, ?_, hadds⟩
  rw [hadds.slots_eq, Stage.leave, Stage.join, hnew, Stage.enter, set_closed, hs]

end Grouping

/-! ## Siblings -/

theorem Trails.latestNamed_eq {w v : Walk} {cs : List Slot} (h : Trails cs w v) (name : String) :
    latestNamed v.fields name = latestNamed w.fields name := by
  rw [fields, h.slots_eq, List.map_append]
  refine latestNamed_append_conditions name fun f hf => ?_
  obtain ⟨c, hc, rfl⟩ := List.mem_map.1 hf
  exact h.conditions c hc

/-- Condition names change nothing about the siblings before. -/
theorem Trails.matches {w v : Walk} {cs : List Slot} {lo : Nat} {earlier : List (String × Bool)}
    {σ : Stage} (h : Trails cs w v) (hm : w.Matches lo earlier σ) :
    v.Matches lo earlier (σ.skip cs) := by
  have hlen : w.slots.length ≤ v.slots.length := by simp [h.slots_eq]
  refine ⟨by rw [h.slots_eq, hm.slots_eq]; rfl, h.cursor_eq.trans hm.cursor_eq,
    Nat.le_trans hm.lo_le hlen, ?_, ?_, ?_, ?_⟩
  · intro name e he hs
    rw [h.latestNamed_eq]
    exact hm.named name e he hs
  · intro s hs
    exact (hm.siblings s hs).append h.slots_eq (Nat.le_of_eq h.cursor_eq.symm)
  · intro p hp
    exact Nat.lt_of_lt_of_le (hm.shared_lt p (h.shared_eq ▸ hp)) hlen
  · intro p hp hlo
    rw [h.cursor_eq]
    exact hm.shared_le p (h.shared_eq ▸ hp) hlo

/-- Nothing but condition names makes no sibling. -/
theorem Trails.lays {w v : Walk} {cs : List Slot} {σ : Stage} (h : Trails cs w v)
    (hs : w.slots = σ.slots) (hc : w.cursor = σ.cursor) : Lays w v .nil (σ.skip cs) :=
  ⟨by rw [h.slots_eq, hs]; rfl, h.cursor_eq.trans hc, h.groups_eq, h.overlays_eq,
    fun _ hp => .inl (h.shared_eq ▸ hp), fun name _ => h.latestNamed_eq name⟩

/-- The siblings behind a declaration continue from where the walk is behind it. -/
theorem Adds.lays {rules : Rules} {w v u u' : Walk} {σ σ' : Stage} {cs new : List Slot}
    {d : Declaration} {items rest f : Forest} {width : Nat} {slot : Slot}
    {usage : Option String} {parent : Option Nat} {slots : List Slot}
    (h : Adds v u σ d items width slot new) (ht : Trails cs w v)
    (hlaid : Laid rules usage parent (σ.join d width slots) rest σ')
    (hslots : slots = u.slots) (hcursor : v.cursor = σ.cursor) (hl : Lays u u' rest σ')
    (hf : ∀ x, x = d ∨ x ∈ items.toList ∨ x ∈ rest.toList → x ∈ f.toList) :
    Lays w u' f σ' := by
  refine ⟨hl.slots_eq, hl.cursor_eq, hl.groups_eq.trans (h.groups_eq.trans ht.groups_eq),
    hl.overlays_eq.trans (h.overlays_eq.trans ht.overlays_eq), ?_, ?_⟩
  · obtain ⟨more, hmore, -⟩ := hlaid.extents_eq
    have hlen : u.slots.length ≤ u'.slots.length := by
      rw [hl.slots_eq, hmore, ← hslots, List.length_append]
      exact Nat.le_add_right _ _
    have hle : u.cursor ≤ u'.cursor := by
      rw [hl.cursor_eq, h.cursor_eq, hcursor]
      exact hlaid.cursor_le
    intro p hp
    rcases hl.shared_of_mem p hp with hp | hp
    · rcases h.shared_of_mem p hp with hp | ⟨hp, hp'⟩
      · exact .inl (ht.shared_eq ▸ hp)
      · exact .inr ⟨by omega, by omega⟩
    · exact .inr hp
  · intro name hname
    have hd : Text.sameIgnoringCase d.name name = false := hname d (hf d (.inl rfl))
    rw [hl.latest_eq name fun x hx => hname x (hf x (.inr (.inr hx))),
      h.latest_eq name fun x hx => hname x (hf x (.inr (.inl hx))), latestNamed_append,
      h.declares.name_eq, hd]
    simp [ht.latestNamed_eq]

/-- A walk over entries that begin with a declaration: nothing but condition names comes before it,
and everything of its level is closed when it is added. -/
theorem exists_declare (rules : Rules) {level : Nat} {entries : List Entry} {d : Declaration}
    {ds : List Declaration} {w : Walk} (he : entries.filterMap Entry.declaration? = d :: ds)
    (hl : d.descriptor.level = level) (hw : w.Nested) :
    ∃ (v : Walk) (behind : List Entry) (cs : List Slot),
      behind.filterMap Entry.declaration? = ds ∧
      nextScope? level v.groups v.overlays = none ∧ Trails cs (w.closeScopes level) v ∧
      (v.declare rules d).Nested ∧
      entries.foldl (addEntry rules) w = behind.foldl (addEntry rules) (v.declare rules d) := by
  obtain ⟨before, e, behind, rfl, hnone, hdec, hbehind⟩ := List.filterMap_eq_cons_iff.1 he
  obtain ⟨cs, ht⟩ := (Trails.refl w).foldl rules hnone
  have hv := hw.foldl rules before
  have hadd := (addEntry_of_declaration rules (before.foldl (addEntry rules) w) hdec).2
  rw [hl] at hadd
  refine ⟨(before.foldl (addEntry rules) w).closeScopes level, behind, cs, hbehind,
    nextScope?_closeScopes level _, ht.closeScopes hw level, ?_, ?_⟩
  · rw [← hadd]
    exact hv.addEntry rules e
  · rw [List.foldl_append, List.foldl_cons, hadd]

theorem tooLarge_eq_false_of_closeScopes {w : Walk} {level : Nat}
    (h : (w.closeScopes level).tooLarge = false) : w.tooLarge = false := by
  cases hover : w.tooLarge with
  | false => rfl
  | true => exact (tooLarge_closeScopes level hover).symm.trans h

/-- A walk that does not overflow behind some siblings has not overflowed before them. -/
theorem tooLarge_eq_false_of_siblings {rules : Rules} {f : Forest} {level : Nat}
    {earlier : List (String × Bool)} {entries : List Entry} {w : Walk}
    (he : entries.filterMap Entry.declaration? = f.toList) (hf : f.WellFormed level earlier)
    (hw : w.Nested)
    (hfit : ((entries.foldl (addEntry rules) w).closeScopes level).tooLarge = false) :
    (w.closeScopes level).tooLarge = false := by
  have hstart : ∀ d ds, f.toList = d :: ds → d.descriptor.level = level →
      (w.closeScopes level).tooLarge = false := by
    intro d ds hd hl
    obtain ⟨v, behind, cs, -, -, ht, -, hfold⟩ := exists_declare rules (he.trans hd) hl hw
    rw [hfold] at hfit
    cases hover : (w.closeScopes level).tooLarge with
    | false => rfl
    | true =>
      have hv := tooLarge_declare rules d (ht.tooLarge_eq.trans hover)
      exact (tooLarge_closeScopes level (tooLarge_foldl rules behind hv)).symm.trans hfit
  cases f with
  | nil =>
    obtain ⟨cs, ht⟩ := (Trails.refl w).foldl rules (List.filterMap_eq_nil_iff.1 he)
    rw [← hfit, (ht.closeScopes hw level).tooLarge_eq]
  | item d rest => exact hstart d _ rfl hf.2.1
  | group d items rest => exact hstart d _ rfl hf.2.1

/-- A walk over the entries of some siblings lays them out. -/
theorem exists_laid {rules : Rules}
    (hr : rules.config.fieldProcessing.processRedefines = true) (f : Forest) {level lo : Nat}
    {earlier : List (String × Bool)} {entries : List Entry} {w : Walk} {σ : Stage}
    (he : entries.filterMap Entry.declaration? = f.toList) (hf : f.WellFormed level earlier)
    (hw : w.Nested) (hm : (w.closeScopes level).Matches lo earlier σ)
    (hfit : ((entries.foldl (addEntry rules) w).closeScopes level).tooLarge = false) :
    ∃ σ', Laid rules ((w.closeScopes level).groups.head?.bind (·.usage))
        ((w.closeScopes level).groups.head?.map (·.index)) σ f σ' ∧
      Lays (w.closeScopes level) ((entries.foldl (addEntry rules) w).closeScopes level) f σ' := by
  induction f generalizing level lo earlier entries w σ with
  | nil =>
    obtain ⟨cs, ht⟩ := (Trails.refl w).foldl rules (List.filterMap_eq_nil_iff.1 he)
    have ht := ht.closeScopes hw level
    exact ⟨σ.skip cs, .skip cs ht.conditions .nil, ht.lays hm.slots_eq hm.cursor_eq⟩
  | item d rest ih =>
    obtain ⟨hk, hl, hred, hrest⟩ := hf
    obtain ⟨v, behind, cs, he, hnext, ht, hu, hfold⟩ := exists_declare rules he hl hw
    rw [hfold] at hfit ⊢
    have hmv := ht.matches hm
    have hfits := tooLarge_eq_false_of_siblings he hrest hu hfit
    obtain ⟨slot, hplaced, hadds⟩ := hmv.exists_adds_item hr hnext hl hk hred
      (tooLarge_eq_false_of_closeScopes hfits)
    obtain ⟨σ', hlaid, hlays⟩ := ih he hrest hu (hadds.matches hmv (by simp [hk])) hfit
    rw [hadds.groups_eq] at hlaid
    rw [← ht.groups_eq]
    have hlays := hadds.lays ht hlaid rfl hmv.cursor_eq hlays (f := .item d rest) (by
      rintro x (rfl | hx | hx)
      · exact List.mem_cons_self
      · cases hx
      · exact List.mem_cons_of_mem _ hx)
    rw [hadds.slots_eq, hmv.slots_eq] at hlaid
    exact ⟨σ', .skip cs ht.conditions (.item slot hk hadds.declares hplaced hlaid), hlays⟩
  | group d items rest ihi ihr =>
    obtain ⟨hk, hl, hred, ⟨inner, hinner, hitems⟩, hrest⟩ := hf
    obtain ⟨v, behind, cs, he, hnext, ht, hg, hfold⟩ := exists_declare rules he hl hw
    obtain ⟨inside, behind, rfl, hei, her⟩ := List.filterMap_eq_append_iff.1 he
    rw [hfold, List.foldl_append] at hfit ⊢
    have hmv := ht.matches hm
    obtain ⟨slot, pending, henter⟩ := hmv.exists_enters hr hk hred
    generalize v.declare rules d = g at *
    have hgclosed : g.closeScopes inner = g := henter.closeScopes_eq hnext hl hinner
    have hclose : ((inside.foldl (addEntry rules) g).closeScopes inner).closeScopes level =
        (inside.foldl (addEntry rules) g).closeScopes level :=
      closeScopes_closeScopes (Nat.le_of_lt hinner) _
    have hu := hg.foldl rules inside
    have hfits := tooLarge_eq_false_of_siblings her hrest hu hfit
    rw [← hclose] at hfits
    obtain ⟨τ, hheld, hlays⟩ := ihi hei hitems hg (hgclosed.symm ▸ henter.matches hmv)
      (tooLarge_eq_false_of_closeScopes hfits)
    rw [hgclosed] at hheld hlays
    have hheld : Laid rules (d.descriptor.usage.or (v.groups.head?.bind (·.usage)))
        (some (σ.skip cs).slots.length) ((σ.skip cs).enter d slot) items τ := by
      rw [henter.groups_eq] at hheld
      rw [← hmv.slots_eq]
      exact hheld
    obtain ⟨new, hslots, hadds⟩ := hlays.exists_adds_group henter hheld hnext hl hmv.slots_eq hfits
    rw [hclose] at hslots hadds
    obtain ⟨σ', hlaid, hlays⟩ := ihr her hrest hu (hadds.matches hmv (by simp [hk])) hfit
    rw [hadds.groups_eq] at hlaid
    rw [← ht.groups_eq]
    have hlays := hadds.lays ht hlaid rfl hmv.cursor_eq hlays (f := .group d items rest) (by
      rintro x (rfl | hx | hx)
      · exact List.mem_cons_self
      · exact List.mem_cons_of_mem _ (List.mem_append_left _ hx)
      · exact List.mem_cons_of_mem _ (List.mem_append_right _ hx))
    rw [hslots] at hlaid
    exact ⟨σ', .skip cs ht.conditions (.group slot hk henter.declares hheld hlaid), hlays⟩

end DataDivision.Record.Walk
