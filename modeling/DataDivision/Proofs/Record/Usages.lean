import DataDivision.Proofs.Record.Levels
import DataDivision.Proofs.Record.UnknownUsages

/-!
Inherited usages.

A walk keeps a copy of the usage that the items inside an open group inherit.  The copy is the usage
of the nearest of the group and the groups around it that has one (`HandsDown.usage_of_group`), so
an elementary item gets its own usage or that of the nearest group around it that has one
(`usage_is_inherited`).  Its encoding and its length follow from that.
-/

namespace DataDivision

/-- What a field takes over from its declaration. -/
structure Field.IsOf (f : Field) (x : Declaration) : Prop where
  name_eq : f.name = x.descriptor.name
  kind_eq : f.kind = x.descriptor.kind
  picture_eq : f.picture = x.descriptor.picture
  occurs_eq : f.occurs = x.descriptor.occurs
  line_eq : f.line = x.entry.line

theorem Field.IsOf.setExtent {f : Field} {x : Declaration} (h : f.IsOf x) (first last : Nat) :
    (f.setExtent first last).IsOf x :=
  ⟨h.name_eq, h.kind_eq, h.picture_eq, h.occurs_eq, h.line_eq⟩

theorem Field.IsOf.encoded {f : Field} {x : Declaration} (h : f.IsOf x) (usage : Option String)
    (encoding : Encoding) (start length : Nat) :
    (({ f with usage := usage, encoding := encoding } : Field).place start length).IsOf x :=
  ⟨h.name_eq, h.kind_eq, h.picture_eq, h.occurs_eq, h.line_eq⟩

/-- The field has a usage, and the encoding that the rules map it to. -/
structure Field.HasUsage (f : Field) (rules : Rules) (usage : Option String) : Prop where
  usage_eq : f.usage = usage
  encoding_eq : f.encoding = (rules.usages.resolve usage).getD .character

namespace Record

/-! ## The usage of an item -/

def ownUsage (xs : List Declaration) (i : Nat) : Option String := xs[i]?.bind (·.descriptor.usage)

/-- The usage of an item: its own or that of the nearest group around it that has one. -/
def inheritedUsage (fields : List Field) (xs : List Declaration) (i : Nat) : Option String :=
  (chain (parentOf fields) i).findSome? (ownUsage xs)

section

variable {fields : List Field} {xs : List Declaration} {f : Field} {x : Declaration} {i : Nat}

theorem findSome?_congr {α β : Type} {g h : α → Option β} {l : List α} (hl : ∀ a ∈ l, g a = h a) :
    l.findSome? g = l.findSome? h := by
  induction l with
  | nil => rfl
  | cons a rest ih =>
    rw [List.findSome?_cons, List.findSome?_cons, hl a List.mem_cons_self,
      ih fun b hb => hl b (List.mem_cons_of_mem _ hb)]

/-- Items behind do not matter. -/
theorem inheritedUsage_append (hlen : fields.length = xs.length) (hi : i < fields.length) :
    inheritedUsage (fields ++ [f]) (xs ++ [x]) i = inheritedUsage fields xs i := by
  have hchain : chain (parentOf (fields ++ [f])) i = chain (parentOf fields) i :=
    chain_congr fun j hj => by
      rw [parentOf, parentOf, List.getElem?_append_left (by omega)]
  rw [inheritedUsage, inheritedUsage, hchain]
  refine findSome?_congr fun j hj => ?_
  have := mem_chain_le hj
  rw [ownUsage, ownUsage, List.getElem?_append_left (by omega)]

/-- A new item has its own usage or that of the group around it. -/
theorem inheritedUsage_concat (hlen : fields.length = xs.length)
    (hp : ∀ p ∈ f.parent, p < fields.length) :
    inheritedUsage (fields ++ [f]) (xs ++ [x]) fields.length =
      x.descriptor.usage.or (f.parent.bind (inheritedUsage fields xs)) := by
  have hparent : parentOf (fields ++ [f]) fields.length = f.parent := by
    rw [parentOf, List.getElem?_concat_length, Option.bind_some]
  have hown : ownUsage (xs ++ [x]) fields.length = x.descriptor.usage := by
    rw [ownUsage, hlen, List.getElem?_concat_length, Option.bind_some]
  cases ho : f.parent with
  | none =>
    rw [inheritedUsage, chain_of_none (hparent.trans ho), List.findSome?_singleton, hown]
    simp
  | some p =>
    have hlt := hp p ho
    have hrest := inheritedUsage_append (f := f) (x := x) hlen hlt
    rw [inheritedUsage, chain_of_some (hparent.trans ho) hlt, List.findSome?_cons, hown]
    rw [inheritedUsage] at hrest
    cases x.descriptor.usage with
    | some u => rfl
    | none => exact hrest

end

namespace Walk

/-! ## Declaring an item -/

theorem isOf_fieldOf (w : Walk) (x : Declaration) (target : Option Nat) :
    (w.fieldOf x target).IsOf x := by
  have h : (Field.ofDescriptor x.descriptor x.entry.line).IsOf x := by
    unfold Field.ofDescriptor
    cases x.descriptor.shape <;> exact ⟨rfl, rfl, rfl, rfl, rfl⟩
  exact ⟨h.name_eq, h.kind_eq, h.picture_eq, h.occurs_eq, h.line_eq⟩

/-- What a field takes over from its declaration, given the usage that it inherits.  An elementary
item has its full length if `fits` holds, that is, if the record is not too large. -/
structure Inherits (rules : Rules) (fits : Prop) (f : Field) (usage : Option String)
    (x : Declaration) : Prop where
  isOf : f.IsOf x
  hasUsage : f.isElementary = true → f.HasUsage rules usage
  length_eq : f.isElementary = true → fits →
    f.storageLength = Storage.length .elementary x.descriptor.shape f.encoding f.occurs

theorem Inherits.declaredAs {rules : Rules} {fits : Prop} {f : Field} {usage : Option String}
    {x : Declaration} (h : Inherits rules fits f usage x) :
    Inherits rules fits (declaredAs f) usage x := by
  unfold Record.declaredAs
  split
  · rename_i hg
    have hne : (f.setExtent f.startPosition f.startPosition).isElementary = true → False := by
      intro he
      have := Field.isElementary_of_isGroup hg
      exact absurd (he.symm.trans this) (by simp)
    exact ⟨h.isOf.setExtent _ _, fun he => (hne he).elim, fun he => (hne he).elim⟩
  · exact h

/-- Unless the record is too large, the position behind some bytes is not cut off. -/
theorem bound_sub_cursor {w : Walk} {length : Nat} {name : String} {span : Span}
    {bounded : Nat × Walk} (hb : w.bound (Storage.add? w.cursor length) name span = bounded)
    (ht : bounded.2.tooLarge = false) : bounded.1 - bounded.2.cursor = length := by
  subst hb
  obtain ⟨n, hn, -, hb⟩ | ⟨-, hb⟩ := bound_cases w (Storage.add? w.cursor length) name span
  · rw [hb]
    unfold Storage.add? at hn
    split at hn
    · cases hn
      exact Nat.add_sub_cancel_left w.cursor length
    · cases hn
  · simp [hb] at ht

/-- An elementary item adds one slot, with the encoding of its usage and, unless the record is too
large, its full length. -/
theorem exists_slot_addElementary (rules : Rules) (d : Entry.Descriptor) (entry : Entry)
    (field : Field) (usage : Option String) (w : Walk) :
    let encoding := (rules.usages.resolve usage).getD .character
    ∃ start length next, (w.addElementary rules d entry field usage).slots = w.slots ++
        [⟨({ field with usage := usage, encoding := encoding } : Field).place start length, next,
          entry.span⟩] ∧
      ((w.addElementary rules d entry field usage).tooLarge = false →
        length = Storage.length .elementary d.shape encoding d.occurs) := by
  intro encoding
  have hencoding : (w.resolveUsage rules usage d.name entry.span).1 = encoding :=
    (resolveUsage_cases rules usage d.name entry.span w).1
  have hresolved := slots_resolveUsage rules usage d.name entry.span w
  rw [addElementary_eq]
  dsimp only
  generalize w.resolveUsage rules usage d.name entry.span = resolved at hencoding hresolved ⊢
  generalize hb : resolved.2.bound _ d.name entry.span = bounded
  have hslots : bounded.2.slots = w.slots := by rw [← hb, slots_bound, hresolved]
  refine ⟨bounded.2.cursor, bounded.1 - bounded.2.cursor, max bounded.2.cursor bounded.1, ?_,
    fun ht => ?_⟩
  · simp only [finishElementary, push, hslots, hencoding]
  · rw [← hencoding]
    exact bound_sub_cursor hb ht

/-- A declaration adds one slot, and its field inherits the usage of the innermost open group. -/
theorem exists_slot_declare (rules : Rules) {x : Declaration} (w : Walk)
    (hk : x.descriptor.kind ≠ .condition) :
    ∃ slot, (w.declare rules x).slots = w.slots ++ [slot] ∧ slot.span = x.entry.span ∧
      Inherits rules ((w.declare rules x).tooLarge = false) slot.field (w.usageOf x.descriptor)
        x := by
  have hslots := slots_redefine rules x.descriptor x.entry.span w
  have hof := isOf_fieldOf w x
  unfold declare
  generalize w.redefine rules x.descriptor x.entry.span = opened at hslots ⊢
  dsimp only
  cases hd : x.descriptor.kind with
  | condition => exact absurd hd hk
  | group =>
    have hne : ((w.fieldOf x opened.1).setExtent opened.2.cursor opened.2.cursor).isElementary =
        true → False := by
      simp [Field.isElementary, Field.setExtent, kind_fieldOf, hd]
    exact ⟨⟨(w.fieldOf x opened.1).setExtent opened.2.cursor opened.2.cursor, opened.2.cursor,
      x.entry.span⟩, by simp only [addGroup, push, hslots], rfl, (hof opened.1).setExtent _ _,
      fun he => (hne he).elim, fun he => (hne he).elim⟩
  | elementary =>
    obtain ⟨start, length, next, hadded, hlength⟩ := exists_slot_addElementary rules x.descriptor
      x.entry (w.fieldOf x opened.1) (w.usageOf x.descriptor) opened.2
    have hoccurs : (w.fieldOf x opened.1).occurs = x.descriptor.occurs := (hof opened.1).occurs_eq
    refine ⟨_, by rw [hadded, hslots], rfl, (hof opened.1).encoded _ _ _ _, fun _ => ⟨rfl, rfl⟩,
      fun _ ht => ?_⟩
    rw [hlength ht]
    simp only [Field.place, hoccurs]

/-! ## Usages in a walk -/

theorem spans_closeScopes {w : Walk} (hn : w.Nested) (level : Nat) :
    (w.closeScopes level).slots.map (·.span) = w.slots.map (·.span) := by
  refine (closeScopes_induct (P := fun v => v.Nested ∧ v.slots.map (·.span) = w.slots.map (·.span))
    ?_ ⟨hn, rfl⟩).2
  intro v s hs hv
  refine ⟨hv.1.close hs, Eq.trans ?_ hv.2⟩
  cases s with
  | overlay overlay outer => rfl
  | group group outer =>
    obtain ⟨slot, next, hc⟩ := closes_close hv.1 hs
    obtain ⟨hlt, hget⟩ := List.getElem?_eq_some_iff.1 hc.slot_eq
    have hspan : (slot.closed next).span = slot.span := rfl
    rw [hc.slots_eq, List.map_set, hspan, ← hget, ← List.map_set, List.set_getElem_self hlt]

/-- A walk over some declarations: the items have the usages that they inherit, and open groups hold
the usages that the items inside them will inherit. -/
structure HandsDown (rules : Rules) (xs : List Declaration) (w : Walk) : Prop where
  spans_eq : w.slots.map (·.span) = xs.map (·.entry.span)
  inherits : ∀ (i : Nat) (f : Field), w.declared[i]? = some f → ∃ x, xs[i]? = some x ∧
    Inherits rules (w.tooLarge = false) f (inheritedUsage w.declared xs i) x
  usage_of_group : ∀ group ∈ w.groups, group.usage = inheritedUsage w.declared xs group.index

namespace HandsDown

variable {rules : Rules} {xs : List Declaration} {w : Walk}

theorem length_eq (h : w.HandsDown rules xs) : w.declared.length = xs.length := by
  have := congrArg List.length h.spans_eq
  simpa [length_declared] using this

theorem closeScopes (h : w.HandsDown rules xs) (hn : w.Nested) (level : Nat) :
    (w.closeScopes level).HandsDown rules xs := by
  have hdeclared := declared_closeScopes hn level
  refine ⟨(spans_closeScopes hn level).trans h.spans_eq, ?_, ?_⟩
  · rw [hdeclared]
    intro i f hf
    obtain ⟨x, hx, hi⟩ := h.inherits i f hf
    refine ⟨x, hx, hi.isOf, hi.hasUsage, fun he ht => hi.length_eq he ?_⟩
    cases hw : w.tooLarge with
    | false => rfl
    | true => rw [tooLarge_closeScopes level hw] at ht; cases ht
  · rw [hdeclared]
    exact fun group hm => h.usage_of_group group ((mem_groups_closeScopes hn).1 hm).1

/-- A declaration has its own usage or that of the innermost open group. -/
theorem usageOf_eq (h : w.HandsDown rules xs) (x : Declaration) :
    w.usageOf x.descriptor = x.descriptor.usage.or
      ((w.groups.head?.map (·.index)).bind (inheritedUsage w.declared xs)) := by
  have hhead : w.groups.head?.bind (·.usage) =
      (w.groups.head?.map (·.index)).bind (inheritedUsage w.declared xs) := by
    cases hg : w.groups with
    | nil => rfl
    | cons group outer => exact h.usage_of_group group (hg ▸ List.mem_cons_self)
  rw [usageOf, hhead]

/-- The old items inherit what they did, and the new one the usage of the innermost open group. -/
theorem inheritedUsage_declare (h : w.HandsDown rules xs) (hn : w.Nested) {x : Declaration}
    (hk : x.descriptor.kind ≠ .condition) :
    (∀ i < w.declared.length, inheritedUsage (w.declare rules x).declared (xs ++ [x]) i =
        inheritedUsage w.declared xs i) ∧
      inheritedUsage (w.declare rules x).declared (xs ++ [x]) w.declared.length =
        w.usageOf x.descriptor := by
  obtain ⟨target, v, slot, hp⟩ := places_declare rules w hk
  have hparent : ∀ p ∈ (declaredAs slot.field).parent, p < w.declared.length := by
    intro p hm
    rw [parent_declaredAs, hp.parent_eq, Option.mem_def, Option.map_eq_some_iff] at hm
    obtain ⟨group, hg, rfl⟩ := hm
    rw [length_declared]
    exact hn.index_lt (List.mem_of_mem_head? hg)
  rw [declared_snoc hp.slots_eq]
  refine ⟨fun i hi => inheritedUsage_append h.length_eq hi, ?_⟩
  rw [inheritedUsage_concat h.length_eq hparent, parent_declaredAs, hp.parent_eq, h.usageOf_eq]

theorem declare (h : w.HandsDown rules xs) (hn : w.Nested) {x : Declaration}
    (hk : x.descriptor.kind ≠ .condition)  :
    (w.declare rules x).HandsDown rules (xs ++ [x]) := by
  obtain ⟨target, v, slot, hp⟩ := places_declare rules w hk
  obtain ⟨slot', hslots, hspan, hi⟩ := exists_slot_declare rules w hk
  obtain rfl : slot' = slot := by
    have := hslots.symm.trans hp.slots_eq
    simpa using this
  obtain ⟨hold, hnew⟩ := h.inheritedUsage_declare hn hk
  have hdeclared := declared_snoc hslots
  refine ⟨?_, fun i f hf => ?_, fun group hm => ?_⟩
  · rw [hslots, List.map_append, h.spans_eq, List.map_append, List.map_singleton,
      List.map_singleton, hspan]
  · have hlt : i < w.declared.length + 1 := by
      have := (List.getElem?_eq_some_iff.1 hf).1
      rwa [hdeclared, List.length_append, List.length_singleton] at this
    rcases Nat.lt_or_eq_of_le (Nat.le_of_lt_succ hlt) with hlt | rfl
    · rw [hdeclared, List.getElem?_append_left hlt] at hf
      obtain ⟨y, hy, hi⟩ := h.inherits i f hf
      refine ⟨y, by rwa [List.getElem?_append_left (h.length_eq ▸ hlt)], hi.isOf, ?_, ?_⟩
      · rw [hold i hlt]
        exact hi.hasUsage
      · exact fun he ht => hi.length_eq he (hp.fits ht)
    · rw [hdeclared, List.getElem?_concat_length, Option.some.injEq] at hf
      subst hf
      refine ⟨x, by rw [h.length_eq, List.getElem?_concat_length], ?_⟩
      exact hnew ▸ hi.declaredAs
  · rcases (hp.mem_groups hk).1 hm with hm | ⟨-, rfl⟩
    · rw [hold group.index (length_declared w ▸ hn.index_lt hm)]
      exact h.usage_of_group group hm
    · rw [← length_declared]
      exact hnew.symm

end HandsDown

theorem handsDown_runDeclarations (rules : Rules) (xs : List Declaration)
    (hk : ∀ x ∈ xs, x.descriptor.kind ≠ .condition) :
    (runDeclarations rules xs).HandsDown rules xs := by
  have hstart : (start rules).HandsDown rules [] :=
    ⟨rfl, fun i f hf => by simp [declared, fields, start] at hf, by simp [start]⟩
  obtain ⟨hn, h⟩ := declarations_induct (P := fun ys v => v.HandsDown rules ys) hstart
    (fun ys v y hy hnv hv => (hv.closeScopes hnv _).declare (hnv.closeScopes _) hy) hk
  exact h.closeScopes hn 0

/-! ## Usages in a record -/

/-- The usage of the item at an index of a walk. -/
theorem inheritedUsage_run (rules : Rules) (entries : List Entry) {i : Nat}
    (hi : Record.HasData (run rules entries).fields i) :
    let xs := entries.filterMap Entry.declaration?
    let fields := (run rules entries).fields
    inheritedUsage (runDeclarations rules xs).declared xs (dataRank fields i) =
      (chain (parentOf fields) i).findSome? fun j => ownUsage xs (dataRank fields j) := by
  intro xs fields
  have hparent :
      parentOf (runDeclarations rules xs).declared = parentOf (dataFields id fields) := by
    rw [dataFields_run]
    funext j
    rw [parentOf, parentOf, declared, List.getElem?_map]
    cases (runDeclarations rules xs).fields[j]? <;> simp
  rw [inheritedUsage, hparent, chain_parentOf_dataFields id (linked_run rules entries).links hi,
    List.findSome?_map]
  rfl

/-- An elementary item of a walk is that of its declaration, and its usage is its own or that of the
nearest group around it that has one. -/
theorem exists_inherits_run (rules : Rules) (entries : List Entry) {i : Nat} {slot : Slot}
    (hi : (run rules entries).slots[i]? = some slot) (he : slot.field.isElementary = true) :
    let xs := entries.filterMap Entry.declaration?
    let fields := (run rules entries).fields
    ∃ x, xs[dataRank fields i]? = some x ∧ slot.span = x.entry.span ∧
      Inherits rules ((run rules entries).tooLarge = false) slot.field
        ((chain (parentOf fields) i).findSome? fun j => ownUsage xs (dataRank fields j)) x := by
  intro xs fields
  have hc := Field.isCondition_of_isElementary he
  have h := handsDown_runDeclarations rules xs fun x => kind_of_mem_declarations
  have hdata : (run rules entries).data.quiet.slots = (runDeclarations rules xs).quiet.slots :=
    congrArg slots (data_run rules entries)
  have hfits :
      (run rules entries).data.quiet.tooLarge = (runDeclarations rules xs).quiet.tooLarge :=
    congrArg tooLarge (data_run rules entries)
  have hat : (runDeclarations rules xs).slots[dataRank fields i]? =
      some (slot.relabel (dataRank fields)) := by
    rw [← itemRank_eq]
    exact hdata ▸ getElem?_data hi hc
  have hsame : declaredAs (slot.relabel (dataRank fields)).field =
      (slot.relabel (dataRank fields)).field := by
    refine if_neg fun hg => ?_
    have hne : slot.field.isElementary = false := Field.isElementary_of_isGroup hg
    rw [he] at hne
    cases hne
  have hdeclared : (runDeclarations rules xs).declared[dataRank fields i]? =
      some (slot.relabel (dataRank fields)).field := by
    rw [declared, Walk.fields, List.map_map, List.getElem?_map, hat, Option.map_some,
      Function.comp_apply, hsame]
  obtain ⟨x, hx, hinherits⟩ := h.inherits _ _ hdeclared
  rw [inheritedUsage_run rules entries (hasData_iff.1 ⟨slot, hi, hc⟩)] at hinherits
  have hspan := congrArg (·[dataRank fields i]?) h.spans_eq
  simp only [List.getElem?_map, hat, hx, Option.map_some, Option.some.injEq] at hspan
  have hof := hinherits.isOf
  exact ⟨x, hx, hspan, ⟨hof.name_eq, hof.kind_eq, hof.picture_eq, hof.occurs_eq, hof.line_eq⟩,
    fun he => ⟨(hinherits.hasUsage he).usage_eq, (hinherits.hasUsage he).encoding_eq⟩,
    fun he hw => hinherits.length_eq he (hfits.symm.trans hw)⟩

end Walk

/-- A field of a record is that of a slot, but for its links and overlays. -/
theorem exists_slot_image (rules : Rules) (entries : List Entry) {k : Nat} {f : Field}
    (hk : (ofEntries rules entries).fields[k]? = some f) :
    ∃ i slot, (Walk.run rules entries).slots[i]? = some slot ∧
      image? rules.config.fieldProcessing (Walk.run rules entries).fields i = some k ∧
      f.unlinked = { slot.field.unlinked with overlays := f.overlays } := by
  obtain ⟨i, g, hg, hi, rfl⟩ := getElem?_prune.1 hk
  rw [getElem?_assignOverlays, Option.map_eq_some_iff] at hg
  obtain ⟨g, hg, rfl⟩ := hg
  obtain ⟨slot, hs, rfl⟩ := Walk.getElem?_fields.1 hg
  rw [renumbered_assignOverlays rules (Walk.linked_run rules entries).links] at hi
  exact ⟨i, slot, hs, hi, rfl⟩

/-- An elementary item has its own usage or else that of the nearest group around it that has one,
and the encoding that the rules map this usage to, characters without a usage.  Its length is that
of its picture in that encoding, unless the record is too large.  The fields of a record are those
of its walk that are not dropped, with the same usages, encodings and lengths.  For each elementary
item, dropped ones included, whose usage has no encoding, there is one finding where its entry
stands, and its bytes are characters; there are no other findings about usages. -/
theorem usage_is_inherited (rules : Rules) (entries : List Entry) :
    let declarations := entries.filterMap Entry.declaration?
    let w := Walk.run rules entries
    let record := ofEntries rules entries
    (∀ (i : Nat) (slot : Slot), w.slots[i]? = some slot → slot.field.isElementary = true →
      ∃ x, declarations[dataRank w.fields i]? = some x ∧ slot.span = x.entry.span ∧
        Walk.Inherits rules (record.reports .recordTooLarge = false) slot.field
          ((chain (parentOf w.fields) i).findSome? fun j =>
            ownUsage declarations (dataRank w.fields j)) x) ∧
    (∀ (k : Nat) (f : Field), record.fields[k]? = some f → ∃ i slot, w.slots[i]? = some slot ∧
      image? rules.config.fieldProcessing w.fields i = some k ∧
      f.unlinked = { slot.field.unlinked with overlays := f.overlays }) ∧
    record.diagnostics.filter Diagnostic.isUnknownUsage =
      w.slots.filterMap (Slot.unknownUsage? rules) := by
  intro declarations w record
  rw [reports_tooLarge]
  exact ⟨fun i slot => Walk.exists_inherits_run rules entries,
    fun k f => exists_slot_image rules entries, Walk.unknownUsages_run rules entries⟩

/-- The item in the filler gets the usage of the filler, which is dropped and has no encoding; the
one behind it gets that of the record. -/
theorem usage_is_inherited_dropped_group :
    let lines := (Source.ofLines (["01 A USAGE COMP-3.", "   05 FILLER USAGE ODD.",
      "      10 B PIC 9(4).", "      10 C PIC 9(4) COMP.", "   05 D PIC 9(3)."].map
      String.toList)).content
    let entries := Entry.ofLines none lines
    let rules := Rules.standard {} .undivided
    let declarations := entries.filterMap Entry.declaration?
    let w := Walk.run rules entries
    let record := ofEntries rules entries
    Rules.interpretWith .plain {} = .ok rules ∧
      record.fields.map (fun f => (f.name, f.usage, f.encoding, f.storageLength)) =
        [("A", none, .character, 0), ("B", some "ODD", .character, 4),
          ("C", some "COMP", .binary, 2), ("D", some "COMP-3", .packedDecimal, 2)] ∧
      record.diagnostics.map (fun d => (d.code, d.primarySpan?.map fun s => (s.start, s.stop))) =
        [(some .unknownUsage, some (43, 63))] ∧
      ∃ slot x, w.slots[2]? = some slot ∧ declarations[dataRank w.fields 2]? = some x ∧
        slot.span = x.entry.span ∧
        Walk.Inherits rules (record.reports .recordTooLarge = false) slot.field
          ((chain (parentOf w.fields) 2).findSome? fun j =>
            ownUsage declarations (dataRank w.fields j)) x ∧
        ∃ f, record.fields[1]? = some f ∧ ∃ i slot, w.slots[i]? = some slot ∧
          image? rules.config.fieldProcessing w.fields i = some 1 ∧
          f.unlinked = { slot.field.unlinked with overlays := f.overlays } := by
  intro lines entries rules declarations w record
  have hitem : ∃ slot, w.slots[2]? = some slot ∧ slot.field.isElementary = true := by
    have hsome : ∃ slot ∈ w.slots[2]?, slot.field.isElementary = true := by decide +kernel
    exact hsome
  have hfield : ∃ f, record.fields[1]? = some f := by
    have hlt : 1 < record.fields.length := by decide +kernel
    exact ⟨_, List.getElem?_eq_getElem hlt⟩
  obtain ⟨slot, hs, he⟩ := hitem
  obtain ⟨f, hf⟩ := hfield
  obtain ⟨hinherits, hkept, -⟩ := usage_is_inherited rules entries
  obtain ⟨x, hx, hspan, hi⟩ := hinherits 2 slot hs he
  exact ⟨Rules.interpret_default, by decide +kernel, by decide +kernel, slot, x, hs, hx, hspan, hi,
    f, hf, hkept 1 f hf⟩

/-- All items of this record have an encoding, and yet a usage is reported: that of the filler,
which is not part of the record. -/
theorem unknown_usage_of_dropped_item :
    let lines := (Source.ofLines (["01 A.", "   05 B PIC X(2).",
      "   05 FILLER PIC X(2) USAGE ODD."].map String.toList)).content
    let record := ofEntries (.standard {} .undivided) (Entry.ofLines none lines)
    ∃ rules : Rules, Rules.interpretWith .plain {} = .ok rules ∧
      ofEntries rules (Entry.ofLines none lines) = record ∧
      (record.fields.map fun f => (f.name, f.usage, rules.usages.resolve f.usage)) =
        [("A", none, some .character), ("B", none, some .character)] ∧
      record.diagnostics.filter Diagnostic.isUnknownUsage ≠ [] := by
  intro lines record
  exact ⟨.standard {} .undivided, Rules.interpret_default, rfl, by decide +kernel,
    by decide +kernel⟩

end Record

end DataDivision
