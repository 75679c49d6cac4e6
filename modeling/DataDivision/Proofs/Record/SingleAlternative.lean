import DataDivision.Proofs.Record.Alternatives
import DataDivision.Proofs.Record.Ancestors

/-!
One alternative of each storage.

Levels decrease along the groups around a field, and if redefinitions have the levels of their
targets, levels stay the same along the redefinitions of one storage.  So of a field and the groups
around it no two lay out the same storage (`SameLevels.baseOf_injOn_chain`): a field shares bytes as
an alternative layout neither with itself nor with a group around it.
-/

namespace DataDivision.Record

/-- Every redefinition has the level of what it redefines. -/
def SameLevels (fields : List Field) : Prop :=
  ∀ f ∈ fields, ∀ t ∈ f.redefinesTarget, ∀ g ∈ fields[t]?, g.level = f.level

instance (fields : List Field) : Decidable (SameLevels fields) :=
  inferInstanceAs (Decidable (∀ f ∈ fields, ∀ t ∈ f.redefinesTarget, ∀ g ∈ fields[t]?,
    g.level = f.level))

section

variable {fields : List Field} {a b i : Nat} {f g : Field}

/-! ## Levels -/

/-- Groups around a field have lower levels. -/
theorem IsLinked.level_lt (h : IsLinked fields) (he : Encloses fields a i)
    (hi : fields[i]? = some f) (ha : fields[a]? = some g) : g.level < f.level := by
  induction he generalizing f with
  | parent hp =>
    obtain ⟨-, o, ho, -, hl⟩ := (h _ f hi).parent a (by simpa [parentOf, hi] using hp)
    obtain rfl := Option.some.inj (ha.symm.trans ho)
    exact hl
  | outer hp _ ih =>
    obtain ⟨-, o, ho, -, hl⟩ := (h _ f hi).parent _ (by simpa [parentOf, hi] using hp)
    exact Nat.lt_trans (ih ho) hl

/-- All redefinitions of a storage have the level of its base. -/
theorem SameLevels.level_baseOf (hs : SameLevels fields) (h : IsLinked fields)
    (hi : fields[i]? = some f) (hb : fields[baseOf fields i]? = some g) : g.level = f.level := by
  induction i using Nat.strongRecOn generalizing f with
  | _ i ih =>
    have ht : targetOf fields i = f.redefinesTarget := by simp [targetOf, hi]
    cases hr : f.redefinesTarget with
    | none =>
      rw [baseOf_of_target_none (ht.trans hr), hi] at hb
      rw [Option.some.inj hb]
    | some t =>
      obtain ⟨hlt, target, hg, -⟩ := (h i f hi).target t hr
      rw [baseOf_of_target_some (ht.trans hr) hlt] at hb
      exact (ih t hlt hg hb).trans (hs f (List.mem_of_getElem? hi) t hr target hg)

/-! ## Storages of a field and the groups around it -/

/-- Of two members of a chain, the one further out encloses the other. -/
theorem IsLinked.pairwise_encloses (h : IsLinked fields) (i : Nat) :
    (chain (parentOf fields) i).Pairwise fun inner outer => Encloses fields outer inner := by
  induction i using Nat.strongRecOn with
  | _ i ih =>
    cases hp : parentOf fields i with
    | none =>
      rw [chain_of_none hp]
      exact List.pairwise_singleton _ _
    | some p =>
      have hlt := h.parent_lt hp
      rw [chain_of_some hp hlt]
      exact List.pairwise_cons.2 ⟨fun a => .of_mem_chain hp, ih p hlt⟩

/-- A field encloses none that lays out the same storage. -/
theorem SameLevels.baseOf_ne (hs : SameLevels fields) (h : IsLinked fields)
    (he : Encloses fields a b) : baseOf fields b ≠ baseOf fields a := by
  intro hbase
  obtain ⟨p, hp, ha⟩ := h.encloses_iff.1 he
  obtain ⟨f, hf, -⟩ := Option.bind_eq_some_iff.1 hp
  have hget : ∀ j ≤ b, ∃ g, fields[j]? = some g := fun j hj =>
    ⟨_, List.getElem?_eq_getElem (Nat.lt_of_le_of_lt hj (List.getElem?_eq_some_iff.1 hf).1)⟩
  have hab : a ≤ b := Nat.le_trans (mem_chain_le ha) (Nat.le_of_lt (h.parent_lt hp))
  obtain ⟨g, hg⟩ := hget a hab
  obtain ⟨base, hb⟩ := hget (baseOf fields b) (Walk.baseOf_le fields b)
  have hlb := hs.level_baseOf h hf hb
  have hla := hs.level_baseOf h hg (hbase ▸ hb)
  have := h.level_lt he hf hg
  omega

/-- A field and the groups around it lay out different storages. -/
theorem SameLevels.pairwise_baseOf_ne (hs : SameLevels fields) (h : IsLinked fields) (i : Nat) :
    (chain (parentOf fields) i).Pairwise fun a b => baseOf fields a ≠ baseOf fields b :=
  (h.pairwise_encloses i).imp fun he => hs.baseOf_ne h he

theorem SameLevels.baseOf_injOn_chain (hs : SameLevels fields) (h : IsLinked fields)
    (ha : a ∈ chain (parentOf fields) i) (hb : b ∈ chain (parentOf fields) i)
    (hbase : baseOf fields a = baseOf fields b) : a = b := by
  have hne := hs.pairwise_baseOf_ne h i
  exact List.Pairwise.forall_of_forall_of_flip
    (R := fun a b => baseOf fields a = baseOf fields b → a = b) (fun _ _ _ => rfl)
    (hne.imp fun hne he => absurd he hne) (hne.imp fun hne he => absurd he.symm hne) ha hb hbase

/-! ## Overlays -/

theorem eq_of_slotOf? {bases : List Nat} {s : OverlaySlot} (h : slotOf? fields bases i = some s) :
    s = ⟨baseOf fields i, i⟩ := by
  unfold slotOf? at h
  dsimp only at h
  split at h
  · exact (Option.some.inj h).symm
  · cases h

/-- The parts that a field has in redefined storage are parts of different storages. -/
theorem SameLevels.pairwise_overlaysOf (hs : SameLevels fields) (h : IsLinked fields)
    (bases : List Nat) (i : Nat) :
    (overlaysOf fields bases i).Pairwise fun s t => s.base ≠ t.base := by
  refine List.Pairwise.filterMap _ ?_ (hs.pairwise_baseOf_ne h i)
  intro a b hne s hs t ht
  rw [eq_of_slotOf? hs, eq_of_slotOf? ht]
  exact hne

/-- The overlays of two fields say exactly when they are layouts of one storage. -/
theorem sharesStorageWith_iff_alternatives {j : Nat}
    (hf : f.overlays = overlaysOf fields (basesOf fields) i)
    (hg : g.overlays = overlaysOf fields (basesOf fields) j) :
    f.sharesStorageWith g = true ↔ Alternatives fields i j := by
  rw [Field.sharesStorageWith_iff, hf, hg]
  constructor
  · rintro ⟨s, hs, t, ht, hbase, hne⟩
    obtain ⟨a, ha, hsa⟩ := List.mem_filterMap.1 hs
    obtain ⟨b, hb, htb⟩ := List.mem_filterMap.1 ht
    rw [eq_of_slotOf? hsa, eq_of_slotOf? htb] at hbase hne
    exact ⟨a, ha, b, hb, hne, hbase⟩
  · rintro ⟨a, ha, b, hb, hne, hbase⟩
    exact ⟨_, List.mem_filterMap.2 ⟨a, ha, slotOf?_eq hne hbase⟩,
      _, List.mem_filterMap.2 ⟨b, hb, slotOf?_eq hne.symm hbase.symm⟩, hbase, hne⟩

/-- No field is an alternative to itself or to what is on the way out from it. -/
theorem SameLevels.not_alternatives (hs : SameLevels fields) (h : IsLinked fields)
    (ha : a ∈ chain (parentOf fields) i) :
    ¬ Alternatives fields i a ∧ ¬ Alternatives fields a i := by
  constructor
  · rintro ⟨b, hb, c, hc, hne, hbase⟩
    exact hne (hs.baseOf_injOn_chain h hb (mem_chain_trans ha hc) hbase)
  · rintro ⟨b, hb, c, hc, hne, hbase⟩
    exact hne (hs.baseOf_injOn_chain h (mem_chain_trans ha hb) hc hbase)

/-! ## Records -/

/-- A field of a record has the overlays of the field that it is the image of. -/
theorem overlays_of_image {rules : Rules} (h : IsLinked fields) {k : Nat}
    (hi : image? rules.config.fieldProcessing fields i = some k)
    (hf : (prune rules (assignOverlays fields))[k]? = some f) :
    f.overlays = overlaysOf fields (basesOf fields) i := by
  obtain ⟨j, g, hg, hj, rfl⟩ := getElem?_prune.1 hf
  rw [← renumbered_assignOverlays rules h] at hi
  obtain rfl := (numbering_numbersOf rules _).injective hj hi
  rw [getElem?_assignOverlays, Option.map_eq_some_iff] at hg
  obtain ⟨g, -, rfl⟩ := hg
  rfl

theorem exists_image {rules : Rules} (h : IsLinked fields) {k : Nat}
    (hf : (prune rules (assignOverlays fields))[k]? = some f) :
    ∃ i, image? rules.config.fieldProcessing fields i = some k := by
  obtain ⟨i, g, -, hi, -⟩ := getElem?_prune.1 hf
  exact ⟨i, renumbered_assignOverlays rules h ▸ hi⟩

end

/-- Every field belongs to one alternative of a storage at most.  Two fields are alternatives
exactly if they or groups around them, dropped ones included, are two different fields whose
redefinitions lead to the same base.  If all redefinitions have the levels of their targets, the
overlays of a field are parts of different storages, and no field is an alternative to itself or to
a group around it. -/
theorem one_alternative_of_each_storage (rules : Rules) (entries : List Entry) :
    let all := (Walk.run rules entries).fields
    let fields := (ofEntries rules entries).fields
    let image := image? rules.config.fieldProcessing all
    (∀ (i j k l : Nat) (f g : Field), image i = some k → image j = some l →
      fields[k]? = some f → fields[l]? = some g →
      (f.sharesStorageWith g = true ↔ Alternatives all i j)) ∧
    (SameLevels all →
      (∀ f ∈ fields, f.overlays.Pairwise fun s t => s.base ≠ t.base) ∧
      (∀ f ∈ fields, f.sharesStorageWith f = false) ∧
      ∀ (a k : Nat) (f g : Field), Encloses fields a k → fields[k]? = some f →
        fields[a]? = some g → f.sharesStorageWith g = false ∧ g.sharesStorageWith f = false) := by
  intro all fields image
  have h : IsLinked all := (Walk.linked_run rules entries).links
  have hshares : ∀ (i j k l : Nat) (f g : Field), image i = some k → image j = some l →
      fields[k]? = some f → fields[l]? = some g →
      (f.sharesStorageWith g = true ↔ Alternatives all i j) := fun i j k l f g hi hj hf hg =>
    sharesStorageWith_iff_alternatives (overlays_of_image h hi hf) (overlays_of_image h hj hg)
  refine ⟨hshares, fun hs => ?_⟩
  have hapart : ∀ {i j k l : Nat} {f g : Field}, image i = some k → image j = some l →
      fields[k]? = some f → fields[l]? = some g → j ∈ chain (parentOf all) i →
      f.sharesStorageWith g = false ∧ g.sharesStorageWith f = false := by
    intro i j k l f g hi hj hf hg hm
    rw [← Bool.not_eq_true, ← Bool.not_eq_true, hshares i j k l f g hi hj hf hg,
      hshares j i l k g f hj hi hg hf]
    exact hs.not_alternatives h hm
  refine ⟨fun f hf => ?_, fun f hf => ?_, fun a k f g he hf hg => ?_⟩
  · obtain ⟨k, hk⟩ := List.mem_iff_getElem?.1 hf
    obtain ⟨i, hi⟩ := exists_image h hk
    rw [overlays_of_image h hi hk]
    exact hs.pairwise_overlaysOf h _ i
  · obtain ⟨k, hk⟩ := List.mem_iff_getElem?.1 hf
    obtain ⟨i, hi⟩ := exists_image h hk
    exact (hapart hi hi hk hk (mem_chain_self _ _)).1
  · obtain ⟨i, hi⟩ := exists_image h hf
    obtain ⟨b, hb, henc⟩ := exists_encloses_of_ofWalk he
      ((congrFun (renumbered_assignOverlays rules h) i).trans hi)
    rw [renumbered_assignOverlays rules h] at hb
    obtain ⟨p, hp, hm⟩ := h.encloses_iff.1 henc
    exact hapart hi hb hf hg (mem_chain_of_next hp (h.parent_lt hp) hm)

/-- An item that redefines another one inside a group that redefines an item: it is an alternative
to both of those items, but not to the group that it is in. -/
theorem one_alternative_of_each_storage_nested :
    let lines := (Source.ofLines (["01 A.", "   05 B PIC X(4).", "   05 C REDEFINES B.",
      "      10 D PIC X(2).", "      10 E REDEFINES D PIC 9(2)."].map String.toList)).content
    let entries := Entry.ofLines none lines
    let rules := Rules.standard {} .undivided
    let all := (Walk.run rules entries).fields
    let fields := (ofEntries rules entries).fields
    Rules.interpretWith .plain {} = .ok rules ∧ SameLevels all ∧
      fields.map (·.overlays) = [[], [⟨1, 1⟩], [⟨1, 2⟩], [⟨3, 3⟩, ⟨1, 2⟩], [⟨3, 4⟩, ⟨1, 2⟩]] ∧
      (∀ f ∈ fields, f.overlays.Pairwise fun s t => s.base ≠ t.base) ∧
      (∀ f ∈ fields, f.sharesStorageWith f = false) ∧
      ∃ b c e, fields[1]? = some b ∧ fields[2]? = some c ∧ fields[4]? = some e ∧
        (e.sharesStorageWith b = true ↔ Alternatives all 4 1) ∧ e.sharesStorageWith b = true ∧
        e.sharesStorageWith c = false ∧ c.sharesStorageWith e = false := by
  intro lines entries rules all fields
  have hlevels : SameLevels all := by decide +kernel
  have hfields : ∃ b c e, fields[1]? = some b ∧ fields[2]? = some c ∧ fields[4]? = some e ∧
      e.parent = some 2 ∧ e.sharesStorageWith b = true := by
    have hsome : ∃ b ∈ fields[1]?, ∃ c ∈ fields[2]?, ∃ e ∈ fields[4]?,
        e.parent = some 2 ∧ e.sharesStorageWith b = true := by decide +kernel
    obtain ⟨b, hb, c, hc, e, he, hpe⟩ := hsome
    exact ⟨b, c, e, hb, hc, he, hpe⟩
  obtain ⟨b, c, e, hb, hc, he, hparent, hshares⟩ := hfields
  have henc : Encloses fields 2 4 := .parent (by rw [parentOf, he]; exact hparent)
  obtain ⟨hiff, hsingle⟩ := one_alternative_of_each_storage rules entries
  obtain ⟨hoverlays, hself, hgroup⟩ := hsingle hlevels
  exact ⟨Rules.interpret_default, hlevels, by decide +kernel, hoverlays, hself, b, c, e, hb, hc, he,
    hiff 4 1 4 1 e b (by decide +kernel) (by decide +kernel) he hb, hshares,
    hgroup 2 4 e c henc he hc⟩

end DataDivision.Record
