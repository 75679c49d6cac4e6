import DataDivision.Proofs.Checked.Walk

/-!
Checked records.

Assigning overlays and dropping fields follow links and look up new numbers by index.  All links
lead to earlier fields, so the lookups are in range, also those in the numbers that are still being
given out, and following links ends (`assignOverlays_eq`, `prune_eq`).
-/

namespace DataDivision.Checked

open Record

/-! ## Shared storage -/

def basesOf (fields : List Field) : Option (List Nat) := do
  let redefining ← (List.range fields.length).filterM fun i =>
    fields[i]?.map (·.redefinesTarget.isSome)
  redefining.mapM (Fields.baseOf fields)

def Fields.overlaysOf (fields : Fields) (bases : List Nat) (i : Nat) :
    Option (List OverlaySlot) := do
  let base ← fields.baseOf i
  let field ← fields[i]?
  let outer ← (match field.parent with
    | some p => fields |>.overlaysOf bases p
    | none => some [])
  return (if base ≠ i ∨ bases.contains i then [⟨base, i⟩] else []) ++ outer
partial_fixpoint

def assignOverlays (fields : List Field) : Option (List Field) := do
  let bases ← basesOf fields
  (List.range fields.length).mapM fun i => do
    let overlays ← Fields.overlaysOf fields bases i
    let f ← fields[i]?
    return { f with overlays := overlays }

section

variable {fields : List Field}

theorem basesOf_eq (h : IsLinked fields) : basesOf fields = some (Record.basesOf fields) := by
  have hfilter : (List.range fields.length).filterM
      (fun i => fields[i]?.map (·.redefinesTarget.isSome)) =
        some ((List.range fields.length).filter fun i => (targetOf fields i).isSome) := by
    refine filterM_eq_some fun i hi => ?_
    rw [targetOf, List.getElem?_eq_getElem (List.mem_range.1 hi)]
    rfl
  have hmap : ((List.range fields.length).filter fun i => (targetOf fields i).isSome).mapM
      (Fields.baseOf fields) = some (((List.range fields.length).filter
        fun i => (targetOf fields i).isSome).map (Record.baseOf fields)) :=
    mapM_eq_some fun i hi => Fields.baseOf_eq (fun i t => targetOf_lt h)
      (List.mem_range.1 (List.mem_filter.1 hi).1)
  rw [basesOf, hfilter, Option.bind_eq_bind, Option.bind_some, hmap, Record.basesOf,
    ← List.filterMap_eq_map, List.filterMap_filter]
  refine congrArg (fun g => some (List.filterMap g _)) (funext fun i => ?_)
  cases targetOf fields i <;> rfl

/-- The groups around a field are before it, so following them ends. -/
theorem Fields.overlaysOf_eq (h : IsLinked fields) (bases : List Nat) {i : Nat}
    (hi : i < fields.length) :
    Fields.overlaysOf fields bases i = some (Record.overlaysOf fields bases i) := by
  induction i using Nat.strongRecOn with
  | _ i ih =>
    have hparent : parentOf fields i = fields[i].parent := by
      rw [parentOf, List.getElem?_eq_getElem hi, Option.bind_some]
    have hslot : ∀ outer : List Nat, (i :: outer).filterMap (slotOf? fields bases) =
        (if Record.baseOf fields i ≠ i ∨ bases.contains i then
          [(⟨Record.baseOf fields i, i⟩ : OverlaySlot)] else []) ++
            outer.filterMap (slotOf? fields bases) := by
      intro outer
      rw [List.filterMap_cons, slotOf?]
      by_cases hb : Record.baseOf fields i ≠ i ∨ bases.contains i = true
      · simp only [if_pos hb, List.singleton_append]
      · simp only [if_neg hb, List.nil_append]
    rw [Fields.overlaysOf, Fields.baseOf_eq (fun i t => targetOf_lt h) hi,
      List.getElem?_eq_getElem hi]
    simp only [Option.bind_eq_bind, Option.bind_some, Option.pure_def]
    rw [Record.overlaysOf, chain, hparent, hslot]
    cases hp : fields[i].parent with
    | none => rfl
    | some p =>
      have hlt := parentOf_lt h (hparent.trans hp)
      dsimp only
      rw [ih p hlt (Nat.lt_trans hlt hi), if_pos hlt]
      rfl

theorem assignOverlays_eq (h : IsLinked fields) :
    assignOverlays fields = some (Record.assignOverlays fields) := by
  have hlength : (Record.assignOverlays fields).length = fields.length := List.length_mapIdx
  rw [assignOverlays, basesOf_eq h, Option.bind_eq_bind, Option.bind_some, ← hlength]
  refine mapM_range_eq_some fun i hi => ?_
  have hi : i < fields.length := hlength ▸ hi
  rw [Fields.overlaysOf_eq h _ hi, getElem?_assignOverlays, List.getElem?_eq_getElem hi]
  rfl

end

/-! ## New numbers -/

/-- The field that a condition name describes stays. -/
def hostStays (numbers : List (Option Nat)) : Option Nat → Option Bool
  | none => some true
  | some h => numbers[h]?.map (·.isSome)

def renumber (dropped : Field → Bool) (done : List (Option Nat)) (next : Nat) :
    List Field → Option (List (Option Nat))
  | [] => some done
  | f :: rest => do
    let stays ← (if dropped f then some false else hostStays done f.host)
    if stays then renumber dropped (done ++ [some next]) (next + 1) rest
    else renumber dropped (done ++ [none]) next rest

/-- The new index of the nearest group that stays. -/
def Fields.retained (fields : Fields) (numbers : List (Option Nat)) :
    Option Nat → Option (Option Nat)
  | none => some none
  | some i => do
    match ← numbers[i]? with
    | some number => return some number
    | none => do
      let f ← fields[i]?
      fields |>.retained numbers f.parent
partial_fixpoint

/-- The new index of the field that a link leads to. -/
def mapped (numbers : List (Option Nat)) : Option Nat → Option (Option Nat)
  | none => some none
  | some i => numbers[i]?

section

variable {fields : List Field} {numbers : List (Option Nat)}

theorem hostStays_eq {host : Option Nat} (h : ∀ i ∈ host, i < numbers.length) :
    hostStays numbers host = some (host.all fun i => (numbers[i]?.bind id).isSome) := by
  cases host with
  | none => rfl
  | some i =>
    have hi := h i rfl
    rw [hostStays, List.getElem?_eq_getElem hi]
    simp [hi]

/-- The number of the described field is already there when it is looked up. -/
theorem renumber_eq {dropped : Field → Bool}
    (h : ∀ i f, fields[i]? = some f → ∀ k ∈ f.host, k < numbers.length + i) (next : Nat) :
    renumber dropped numbers next fields = some (Record.renumber dropped numbers next fields) := by
  induction fields generalizing numbers next with
  | nil => rfl
  | cons f rest ih =>
    have hhost := hostStays_eq (h 0 f rfl)
    have hrest : ∀ number : Option Nat, ∀ i g, rest[i]? = some g →
        ∀ k ∈ g.host, k < (numbers ++ [number]).length + i := by
      intro number i g hg k hk
      have := h (i + 1) g (by simpa using hg) k hk
      simp only [List.length_append, List.length_singleton]
      omega
    rw [renumber, Record.renumber, hhost]
    cases dropped f with
    | true => simp [ih (hrest none)]
    | false =>
      simp only [Bool.false_eq_true, ↓reduceIte, Option.bind_eq_bind, Option.bind_some,
        Bool.not_false, Bool.true_and, ih (hrest none), ih (hrest (some next))]
      split <;> rfl

/-- The groups around a field are before it, so one that stays is found or there is none. -/
theorem Fields.retained_eq (h : IsLinked fields) (hn : numbers.length = fields.length) {i : Nat}
    (hi : i < fields.length) : Fields.retained fields numbers (some i) =
      some ((chain (parentOf fields) i).findSome? (renumbered numbers)) := by
  induction i using Nat.strongRecOn with
  | _ i ih =>
    have hparent : parentOf fields i = fields[i].parent := by
      rw [parentOf, List.getElem?_eq_getElem hi, Option.bind_some]
    have hnumber : renumbered numbers i = numbers[i] := by
      rw [renumbered, List.getElem?_eq_getElem (hn.symm ▸ hi)]
      rfl
    rw [Fields.retained, chain, List.findSome?_cons, hnumber, hparent,
      List.getElem?_eq_getElem (hn.symm ▸ hi), List.getElem?_eq_getElem hi]
    simp only [Option.bind_eq_bind, Option.bind_some, Option.pure_def]
    cases numbers[i] with
    | some number => rfl
    | none =>
      cases hp : fields[i].parent with
      | none =>
        dsimp only
        rw [Fields.retained]
        rfl
      | some p =>
        have hlt := parentOf_lt h (hparent.trans hp)
        dsimp only
        rw [ih p hlt (Nat.lt_trans hlt hi), if_pos hlt]

theorem mapped_eq {link : Option Nat} (h : ∀ i ∈ link, i < numbers.length) :
    mapped numbers link = some (link.bind (renumbered numbers)) := by
  cases link with
  | none => rfl
  | some i =>
    rw [mapped, Option.bind_some, renumbered, List.getElem?_eq_getElem (h i rfl)]
    rfl

end

/-! ## Dropping fields -/

/-- A field that stays, without children, with its links in the new numbering. -/
def relink (rules : Rules) (fields : List Field) (numbers : List (Option Nat)) (f : Field) :
    Option Field := do
  let parent ← (if f.isCondition then some none else Fields.retained fields numbers f.parent)
  let host ← mapped numbers f.host
  let target ← mapped numbers f.redefinesTarget
  let conditionNames ← f.conditionNames.mapM fun i => numbers[i]?
  return { f with
    parent := parent
    host := host
    redefinesTarget := target
    conditionNames := conditionNames.filterMap id
    children := []
    outputName := outputName rules f.name }

/-- Adds a field to the children of the group around it. -/
def linkField (fields : List Field) (i : Nat) : Option (List Field) := do
  let f ← fields[i]?
  match f.parent with
  | some p => modify fields p (·.addChild i)
  | none => some fields

/-- Gives every field its children. -/
def linkChildren (fields : List Field) : Option (List Field) :=
  (List.range fields.length).foldlM linkField fields

def prune (rules : Rules) (fields : List Field) : Option (List Field) := do
  let numbers ← renumber (isDropped rules.config.fieldProcessing) [] 0 fields
  let kept ← ((fields.zip numbers).filter fun x => x.2.isSome).mapM fun x =>
    relink rules fields numbers x.1
  linkChildren kept

/-- The fields with the children among the first ones of them. -/
def linkedUpTo (fields : List Field) (n : Nat) : List Field :=
  fields.mapIdx fun i f => { f with
    children := indicesOf (fields.take n) fun g => g.parent == some i
    conditionNames := indicesOf fields fun g => g.host == some i }

section

variable {fields : List Field}

theorem linkField_eq (h : IsLinked fields) {n : Nat} (hn : n < fields.length) :
    linkField (linkedUpTo fields n) n = some (linkedUpTo fields (n + 1)) := by
  have hlength : (linkedUpTo fields n).length = fields.length := List.length_mapIdx
  have hat : ∀ j m, (linkedUpTo fields m)[j]? = fields[j]?.map fun f : Field => { f with
      children := indicesOf (fields.take m) fun g => g.parent == some j
      conditionNames := indicesOf fields fun g => g.host == some j } :=
    fun _ _ => List.getElem?_mapIdx
  have htake : fields.take (n + 1) = fields.take n ++ [fields[n]] := by
    rw [List.take_add_one, List.getElem?_eq_getElem hn]
    rfl
  have hindices : ∀ j, indicesOf (fields.take (n + 1)) (fun g => g.parent == some j) =
      indicesOf (fields.take n) (fun g => g.parent == some j) ++
        if fields[n].parent == some j then [n] else [] := by
    intro j
    rw [htake, indicesOf_concat, List.length_take_of_le (Nat.le_of_lt hn)]
  unfold linkField
  rw [hat, List.getElem?_eq_getElem hn]
  simp only [Option.map_some, Option.bind_eq_bind, Option.bind_some]
  cases hp : fields[n].parent with
  | none =>
    refine congrArg some (List.ext_getElem? fun j => ?_)
    rw [hat, hat, hindices, hp]
    simp
  | some p =>
    have hlt := ((h n _ (List.getElem?_eq_getElem hn)).parent p hp).1
    dsimp only
    rw [modify_eq (by omega)]
    refine congrArg some (List.ext_getElem? fun j => ?_)
    rw [List.getElem?_modify, hat, hat, hindices, hp]
    cases fields[j]? with
    | none => rfl
    | some f => by_cases hj : p = j <;> simp [hj, Field.addChild]

/-- Adding one field after another to the children of its group gives all of them their children. -/
theorem linkChildren_eq (h : IsLinked fields) :
    linkChildren (linkedUpTo fields 0) = some (linkDown fields) := by
  have hall : linkedUpTo fields fields.length = linkDown fields := by
    rw [linkedUpTo, List.take_length, linkDown]
  have hrun : ∀ n, n ≤ fields.length →
      (List.range n).foldlM linkField (linkedUpTo fields 0) = some (linkedUpTo fields n) := by
    intro n hn
    induction n with
    | zero => rfl
    | succ n ih =>
      rw [List.range_succ, List.foldlM_append, ih (Nat.le_of_lt hn)]
      simp only [Option.bind_eq_bind, Option.bind_some, List.foldlM_cons, linkField_eq h hn]
      rfl
  have hlength : (linkedUpTo fields 0).length = fields.length := List.length_mapIdx
  rw [linkChildren, hlength, hrun _ (Nat.le_refl _), hall]

/-- Only what is dropped and what describes another field matter for the new numbers. -/
theorem renumber_congr {dropped : Field → Bool} {fields fields' : List Field}
    (h : fields.map (fun f => (dropped f, f.host)) = fields'.map fun f => (dropped f, f.host))
    (done : List (Option Nat)) (next : Nat) :
    Record.renumber dropped done next fields = Record.renumber dropped done next fields' := by
  induction fields generalizing fields' done next with
  | nil =>
    obtain rfl := List.map_eq_nil_iff.1 h.symm
    rfl
  | cons f rest ih =>
    obtain ⟨f', rest', rfl, hf, hrest⟩ := List.map_eq_cons_iff.1 h.symm
    obtain ⟨hd, hh⟩ := Prod.mk.inj hf
    rw [Record.renumber, Record.renumber, hd, hh, ih hrest.symm, ih hrest.symm]

theorem numbersOf_linkDown (rules : Rules) (fields : List Field) :
    numbersOf rules (linkDown fields) = numbersOf rules fields := by
  refine renumber_congr (List.ext_getElem? fun i => ?_) [] 0
  rw [List.getElem?_map, List.getElem?_map, getElem?_linkDown, Option.map_map]
  rfl

/-- Two lists of increasing numbers with the same members are equal. -/
theorem eq_of_mem_iff {l l' : List Nat} (h : l.Pairwise (· < ·)) (h' : l'.Pairwise (· < ·))
    (hm : ∀ n, n ∈ l ↔ n ∈ l') : l = l' := by
  refine List.Perm.eq_of_pairwise (fun a b _ _ hab hba => by omega) h h' ?_
  exact (List.perm_ext_iff_of_nodup (h.imp Nat.ne_of_lt) (h'.imp Nat.ne_of_lt)).2 hm

/-- A field that stays is found at its new number. -/
theorem getElem?_relinked (rules : Rules) (h : IsLinked fields) {k : Nat} {g : Field} :
    (relinked rules fields)[k]? = some g ↔ ∃ i f, fields[i]? = some f ∧
      renumbered (numbersOf rules fields) i = some k ∧
        g = Record.relink rules fields (numbersOf rules fields) f := by
  have hn := numbering_numbersOf rules fields
  have hkept := map_filter_zip (map_isSome_numbersOf rules h)
  rw [relinked, ← hkept, List.map_map, List.getElem?_map, Option.map_eq_some_iff]
  constructor
  · rintro ⟨x, hx, rfl⟩
    obtain ⟨i, hf, hi, -⟩ := (hn.getElem?_filter_zip rfl).1 hx
    exact ⟨i, x.1, hf, hi, rfl⟩
  · rintro ⟨i, f, hf, hi, rfl⟩
    exact ⟨(f, some k), (hn.getElem?_filter_zip rfl).2 ⟨i, hf, hi, rfl⟩, rfl⟩

/-- The new numbers of the condition names of a field that stays are those of its condition names
among the fields that stay. -/
theorem conditionNames_relinked (rules : Rules) (h : IsLinked fields) {i k : Nat}
    (hi : renumbered (numbersOf rules fields) i = some k) :
    (indicesOf fields fun g => g.host == some i).filterMap (renumbered (numbersOf rules fields)) =
      indicesOf (relinked rules fields) fun g => g.host == some k := by
  have hn := numbering_numbersOf rules fields
  have hsorted : ((indicesOf fields fun g => g.host == some i).filterMap
      (renumbered (numbersOf rules fields))).Pairwise (· < ·) := by
    refine (pairwise_indicesOf fields _).filterMap _ fun a b hab a' ha b' hb => ?_
    exact hn.strictMono ha hb hab
  refine eq_of_mem_iff hsorted (pairwise_indicesOf _ _) fun n => ?_
  rw [List.mem_filterMap, mem_indicesOf]
  constructor
  · rintro ⟨j, hj, hnum⟩
    obtain ⟨f, hf, hhost⟩ := mem_indicesOf.1 hj
    refine ⟨_, (getElem?_relinked rules h).2 ⟨j, f, hf, hnum, rfl⟩, ?_⟩
    rw [Record.relink, eq_of_beq hhost]
    simp [hi]
  · rintro ⟨g, hg, hhost⟩
    obtain ⟨j, f, hf, hnum, rfl⟩ := (getElem?_relinked rules h).1 hg
    obtain ⟨i', hhost', hi'⟩ := Option.bind_eq_some_iff.1 (eq_of_beq hhost)
    refine ⟨j, mem_indicesOf.2 ⟨f, hf, ?_⟩, hnum⟩
    rw [hhost', hn.injective hi' hi]
    exact beq_self_eq_true _

/-- A field that stays before it has its children, when its number is the given one. -/
def relinkedAt (rules : Rules) (fields : List Field) (f : Field) (number : Option Nat) : Field :=
  { Record.relink rules fields (numbersOf rules fields) f with
    children := []
    conditionNames := indicesOf (relinked rules fields) fun g => g.host == number }

section

variable {i k : Nat} {f : Field}

theorem parent_relink (rules : Rules) (h : IsLinked fields) (hf : (linkDown fields)[i]? = some f) :
    (if f.isCondition then some none
      else Fields.retained (linkDown fields) (numbersOf rules fields) f.parent) =
        some (keptParent fields (numbersOf rules fields) f) := by
  have hn := (numbering_numbersOf rules fields).length_eq
  have hlt := (List.getElem?_eq_some_iff.1 hf).1
  unfold keptParent
  split
  · rfl
  · cases hp : f.parent with
    | none =>
      rw [Fields.retained]
      rfl
    | some p =>
      have hplt := ((isLinked_linkDown h i f hf).parent p hp).1
      rw [Fields.retained_eq (isLinked_linkDown h) (hn.trans (length_linkDown fields).symm)
        (Nat.lt_trans hplt hlt), parentOf_linkDown]
      rfl

/-- Condition names have numbers, or none if they are dropped. -/
theorem mapM_conditionNames (rules : Rules) (hf : (linkDown fields)[i]? = some f) :
    (f.conditionNames.mapM fun j => (numbersOf rules fields)[j]?) =
      some ((indicesOf fields fun g => g.host == some i).map
        (renumbered (numbersOf rules fields))) := by
  have hn := (numbering_numbersOf rules fields).length_eq
  rw [getElem?_linkDown, Option.map_eq_some_iff] at hf
  obtain ⟨g, -, rfl⟩ := hf
  dsimp only
  refine mapM_eq_some fun j hj => ?_
  obtain ⟨c, hc, -⟩ := mem_indicesOf.1 hj
  have hjlt := (List.getElem?_eq_some_iff.1 hc).1
  rw [renumbered, List.getElem?_eq_getElem (hn.symm ▸ hjlt)]
  rfl

theorem relink_eq (rules : Rules) (h : IsLinked fields) (hf : (linkDown fields)[i]? = some f)
    (hi : renumbered (numbersOf rules fields) i = some k) :
    relink rules (linkDown fields) (numbersOf rules fields) f =
      some (relinkedAt rules fields f (some k)) := by
  have hn := (numbering_numbersOf rules fields).length_eq
  have hl := isLinked_linkDown h i f hf
  have hlt : i < fields.length := length_linkDown fields ▸ (List.getElem?_eq_some_iff.1 hf).1
  have hhost : mapped (numbersOf rules fields) f.host =
      some (f.host.bind (renumbered (numbersOf rules fields))) :=
    mapped_eq fun j hj => by
      have := (hl.host j hj).2.1
      omega
  have htarget : mapped (numbersOf rules fields) f.redefinesTarget =
      some (f.redefinesTarget.bind (renumbered (numbersOf rules fields))) :=
    mapped_eq fun j hj => by
      have := (hl.target j hj).1
      omega
  have hkept : ((indicesOf fields fun g => g.host == some i).map
      (renumbered (numbersOf rules fields))).filterMap id =
        indicesOf (relinked rules fields) fun g => g.host == some k := by
    rw [List.filterMap_map]
    exact conditionNames_relinked rules h hi
  rw [relink, parent_relink rules h hf, hhost, htarget, mapM_conditionNames rules hf]
  simp only [Option.bind_eq_bind, Option.bind_some, hkept]
  rfl

end

/-- The numbers of described fields are there when they are looked up. -/
theorem renumber_linkDown (rules : Rules) (h : IsLinked fields) :
    renumber (isDropped rules.config.fieldProcessing) [] 0 (linkDown fields) =
      some (numbersOf rules fields) := by
  rw [← numbersOf_linkDown, numbersOf]
  refine renumber_eq (fun i f hf k hk => ?_) 0
  have := ((isLinked_linkDown h i f hf).host k hk).2.1
  simpa using this

/-- The fields that stay are at the numbers they are given. -/
theorem map_relinkedAt (rules : Rules) (h : IsLinked fields) :
    (((linkDown fields).zip (numbersOf rules fields)).filter fun x => x.2.isSome).map
      (fun x => relinkedAt rules fields x.1 x.2) = linkedUpTo (relinked rules fields) 0 := by
  have hn := numbering_numbersOf rules fields
  refine List.ext_getElem? fun k => Option.ext fun g => ?_
  rw [List.getElem?_map, Option.map_eq_some_iff, linkedUpTo, List.getElem?_mapIdx,
    Option.map_eq_some_iff]
  constructor
  · rintro ⟨x, hx, rfl⟩
    obtain ⟨i, hf, hi, hnumber⟩ := (hn.getElem?_filter_zip (length_linkDown fields)).1 hx
    rw [getElem?_linkDown, Option.map_eq_some_iff] at hf
    obtain ⟨f, hf, hfx⟩ := hf
    refine ⟨_, (getElem?_relinked rules h).2 ⟨i, f, hf, hi, rfl⟩, ?_⟩
    rw [← hfx, hnumber]
    rfl
  · rintro ⟨g, hg, rfl⟩
    obtain ⟨i, f, hf, hi, rfl⟩ := (getElem?_relinked rules h).1 hg
    have hx := (getElem?_linkDown fields i).trans (congrArg _ hf)
    exact ⟨(_, some k), (hn.getElem?_filter_zip (length_linkDown fields)).2 ⟨i, hx, hi, rfl⟩, rfl⟩

/-- Fields can be dropped when all links lead back. -/
theorem prune_eq (rules : Rules) (h : IsLinked fields) :
    prune rules (linkDown fields) = some (Record.prune rules fields) := by
  have hn := numbering_numbersOf rules fields
  have hkept : (((linkDown fields).zip (numbersOf rules fields)).filter fun x => x.2.isSome).mapM
      (fun x => relink rules (linkDown fields) (numbersOf rules fields) x.1) =
        some ((((linkDown fields).zip (numbersOf rules fields)).filter fun x => x.2.isSome).map
          fun x => relinkedAt rules fields x.1 x.2) := by
    refine mapM_eq_some fun x hx => ?_
    obtain ⟨k, hk⟩ := List.mem_iff_getElem?.1 hx
    obtain ⟨i, hf, hi, hnumber⟩ := (hn.getElem?_filter_zip (length_linkDown fields)).1 hk
    rw [relink_eq rules h hf hi, hnumber]
  have hl : IsLinked (relinked rules fields) :=
    isLinked_of_linkDown (prune_eq_linkDown rules h ▸ isLinked_prune h)
  simp only [prune, renumber_linkDown rules h, hkept, map_relinkedAt rules h, Option.bind_eq_bind,
    Option.bind_some, linkChildren_eq hl, prune_eq_linkDown rules h]

end

/-! ## Records -/

def ofEntries (rules : Rules) (entries : List Entry) : Option Record := do
  let s ← run rules entries
  let fields ← assignOverlays s.fields
  let fields ← prune rules fields
  return { fields := fields, diagnostics := s.rest.diagnostics, recordEnd := s.rest.cursor - 1 }

/-- Overlays do not depend on the lists of what refers to fields. -/
theorem assignOverlays_linkDown (fields : List Field) :
    Record.assignOverlays (linkDown fields) = linkDown (Record.assignOverlays fields) := by
  have hbases : Record.basesOf (linkDown fields) = Record.basesOf fields := by
    simp only [Record.basesOf, baseOf_linkDown, targetOf_linkDown, length_linkDown]
  have hoverlays : ∀ bases i, Record.overlaysOf (linkDown fields) bases i =
      Record.overlaysOf fields bases i := by
    intro bases i
    have hslot : slotOf? (linkDown fields) bases = slotOf? fields bases := by
      funext j
      rw [slotOf?, slotOf?, baseOf_linkDown]
    rw [Record.overlaysOf, Record.overlaysOf, parentOf_linkDown, hslot]
  have hindices : ∀ p : Field → Bool, (∀ (f : Field) overlays, p { f with overlays := overlays } =
      p f) → indicesOf (Record.assignOverlays fields) p = indicesOf fields p := by
    intro p hp
    refine indicesOf_congr (List.ext_getElem? fun i => ?_)
    rw [List.getElem?_map, List.getElem?_map, getElem?_assignOverlays, Option.map_map]
    cases fields[i]? with
    | none => rfl
    | some f => exact congrArg some (hp f _)
  refine List.ext_getElem? fun i => ?_
  rw [getElem?_assignOverlays, getElem?_linkDown, getElem?_linkDown, getElem?_assignOverlays,
    hbases, hoverlays, hindices _ fun _ _ => rfl, hindices _ fun _ _ => rfl]
  cases fields[i]? <;> rfl

/-- The record of some entries is laid out when it starts at a 64-bit position. -/
theorem ofEntries_eq {rules : Rules} (h : rules.startPosition + rules.codeWidth ≤ Text.maxWord64)
    (entries : List Entry) : ofEntries rules entries = some (Record.ofEntries rules entries) := by
  have hl := (Walk.linked_run rules entries).links
  have hassign : assignOverlays (State.of (Walk.run rules entries)).fields =
      some (linkDown (Record.assignOverlays (Walk.run rules entries).fields)) := by
    rw [← assignOverlays_linkDown]
    exact assignOverlays_eq (isLinked_linkDown hl)
  rw [ofEntries, run_eq h]
  simp only [Option.bind_eq_bind, Option.bind_some, hassign,
    prune_eq rules (isLinked_assignOverlays hl)]
  rfl

end DataDivision.Checked
