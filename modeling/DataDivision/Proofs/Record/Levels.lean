import DataDivision.Proofs.Record.Ancestors
import DataDivision.Proofs.Record.Declarations
import DataDivision.Proofs.Record.Succession

/-!
Nesting by level numbers.

The group around a data item is the latest group before it such that everything since is deeper, the
item itself included (`groupAround?`).  The open groups of a walk are those since which everything
is deeper (`Outlined.isOpen_iff`), so the innermost one that an entry leaves open is the one that
the levels alone determine.  Nothing else of an entry matters, and neither do entries that declare
no data item (`parent_is_latest_surrounding_group`).
-/

namespace DataDivision

/-- What nesting depends on: the level of an item, and whether it is a group. -/
structure Heading where
  level : Nat
  isGroup : Bool
  deriving DecidableEq, Repr

def Declaration.heading (x : Declaration) : Heading :=
  ⟨x.descriptor.level, x.descriptor.kind == .group⟩

def Field.heading (f : Field) : Heading := ⟨f.level, f.isGroup⟩

namespace Record

/-! ## Groups around an item -/

/-- The item at the first index is a group, and all items behind it up to the second index are
deeper. -/
def Surrounds (items : List Heading) (p i : Nat) : Prop :=
  p < i ∧ ∃ g ∈ items[p]?, g.isGroup = true ∧ ∀ k ≤ i, p < k → ∀ x ∈ items[k]?, g.level < x.level

instance (items : List Heading) (p i : Nat) : Decidable (Surrounds items p i) :=
  inferInstanceAs (Decidable (p < i ∧ ∃ g ∈ items[p]?, g.isGroup = true ∧
    ∀ k ≤ i, p < k → ∀ x ∈ items[k]?, g.level < x.level))

/-- The latest group that surrounds the item at an index. -/
def groupAround? (items : List Heading) (i : Nat) : Option Nat :=
  (List.range i).reverse.find? fun p => Surrounds items p i

section

variable {items : List Heading} {h : Heading} {p i : Nat}

theorem find?_reverse_range_eq_some_iff {P : Nat → Bool} {n : Nat} :
    (List.range n).reverse.find? P = some p ↔
      p < n ∧ P p = true ∧ ∀ q < n, P q = true → q ≤ p := by
  induction n with
  | zero => simp
  | succ n ih =>
    rw [List.range_succ, List.reverse_append, List.reverse_singleton, List.singleton_append,
      List.find?_cons]
    cases hn : P n with
    | true =>
      simp only [Option.some.injEq]
      constructor
      · rintro rfl
        exact ⟨Nat.lt_succ_self _, hn, fun q hq _ => Nat.le_of_lt_succ hq⟩
      · rintro ⟨hp, -, hmax⟩
        exact Nat.le_antisymm (hmax n (Nat.lt_succ_self n) hn) (Nat.le_of_lt_succ hp)
    | false =>
      have hne : ∀ q, P q = true → q ≠ n := by
        rintro q hq rfl
        rw [hn] at hq
        cases hq
      simp only [ih]
      constructor
      · rintro ⟨hp, hP, hmax⟩
        refine ⟨Nat.lt_succ_of_lt hp, hP, fun q hq hPq => hmax q ?_ hPq⟩
        have := hne q hPq
        omega
      · rintro ⟨hp, hP, hmax⟩
        have := hne p hP
        exact ⟨by omega, hP, fun q hq => hmax q (Nat.lt_succ_of_lt hq)⟩

theorem groupAround?_eq_some_iff : groupAround? items i = some p ↔
    Surrounds items p i ∧ ∀ q, Surrounds items q i → q ≤ p := by
  rw [groupAround?, find?_reverse_range_eq_some_iff]
  simp only [decide_eq_true_eq]
  exact ⟨fun ⟨_, hp, hmax⟩ => ⟨hp, fun q hq => hmax q hq.1 hq⟩,
    fun ⟨hp, hmax⟩ => ⟨hp.1, hp, fun q _ => hmax q⟩⟩

theorem groupAround?_eq_none_iff : groupAround? items i = none ↔ ∀ p, ¬ Surrounds items p i := by
  simp only [groupAround?, List.find?_eq_none, List.mem_reverse, List.mem_range, decide_eq_true_eq]
  exact ⟨fun h p hp => h p hp.1 hp, fun h p _ => h p⟩

/-- Items behind do not matter. -/
theorem surrounds_append (more : List Heading) (hi : i < items.length) :
    Surrounds (items ++ more) p i ↔ Surrounds items p i := by
  have hget : ∀ k ≤ i, (items ++ more)[k]? = items[k]? := fun k hk =>
    List.getElem?_append_left (by omega)
  unfold Surrounds
  refine and_congr_right fun hp => ?_
  rw [hget p (Nat.le_of_lt hp)]
  refine exists_congr fun g => and_congr_right fun _ => and_congr_right fun _ => ?_
  exact forall₂_congr fun k hk => by rw [hget k hk]

theorem groupAround?_append (more : List Heading) (hi : i < items.length) :
    groupAround? (items ++ more) i = groupAround? items i := by
  refine Option.ext fun p => ?_
  simp only [groupAround?_eq_some_iff, surrounds_append more hi]

/-- A new item is inside the groups that were open, if they are shallower. -/
theorem surrounds_snoc : Surrounds (items ++ [h]) p items.length ↔
    Surrounds items p items.length ∧ ∃ g ∈ items[p]?, g.level < h.level := by
  unfold Surrounds
  rw [and_assoc]
  refine and_congr_right fun hp => ?_
  rw [List.getElem?_append_left hp]
  constructor
  · rintro ⟨g, hg, hgroup, hdeeper⟩
    refine ⟨⟨g, hg, hgroup, fun k hk hpk x hx => hdeeper k hk hpk x ?_⟩, g, hg,
      hdeeper _ (Nat.le_refl _) hp h List.getElem?_concat_length⟩
    rwa [List.getElem?_append_left (List.getElem?_eq_some_iff.1 hx).1]
  · rintro ⟨⟨g, hg, hgroup, hdeeper⟩, g', hg', hlevel⟩
    obtain rfl := Option.some.inj (hg.symm.trans hg')
    refine ⟨g, hg, hgroup, fun k hk hpk x hx => ?_⟩
    rcases Nat.lt_or_eq_of_le hk with hlt | rfl
    · exact hdeeper k hk hpk x (by rwa [List.getElem?_append_left hlt] at hx)
    · rw [Option.mem_def, List.getElem?_concat_length, Option.some.injEq] at hx
      exact hx ▸ hlevel

/-- Behind a new item the groups around it are open, and so is the item if it is a group. -/
theorem surrounds_snoc_succ : Surrounds (items ++ [h]) p (items.length + 1) ↔
    Surrounds (items ++ [h]) p items.length ∨ p = items.length ∧ h.isGroup = true := by
  have hend : ∀ {k : Nat} {x : Heading}, x ∈ (items ++ [h])[k]? → k ≤ items.length := by
    intro k x hx
    have := (List.getElem?_eq_some_iff.1 hx).1
    rw [List.length_append, List.length_singleton] at this
    omega
  constructor
  · rintro ⟨hp, g, hg, hgroup, hdeeper⟩
    rcases Nat.lt_or_eq_of_le (Nat.le_of_lt_succ hp) with hlt | rfl
    · exact .inl ⟨hlt, g, hg, hgroup, fun k hk => hdeeper k (Nat.le_succ_of_le hk)⟩
    · rw [Option.mem_def, List.getElem?_concat_length, Option.some.injEq] at hg
      exact .inr ⟨rfl, hg ▸ hgroup⟩
  · rintro (⟨hp, g, hg, hgroup, hdeeper⟩ | ⟨rfl, hgroup⟩)
    · exact ⟨Nat.lt_succ_of_lt hp, g, hg, hgroup, fun k _ hpk x hx => hdeeper k (hend hx) hpk x hx⟩
    · refine ⟨Nat.lt_succ_self _, h, List.getElem?_concat_length, hgroup, fun k _ hpk x hx => ?_⟩
      have := hend hx
      omega

end

/-! ## Open groups -/

@[simp] theorem heading_declaredAs (f : Field) : (declaredAs f).heading = f.heading := by
  unfold declaredAs
  split <;> rfl

@[simp] theorem parent_declaredAs (f : Field) : (declaredAs f).parent = f.parent := by
  unfold declaredAs
  split <;> rfl

namespace Walk

variable {w : Walk} {items : List Heading}

/-- Closing a level leaves the shallower groups open. -/
theorem mem_groups_closeScopes (hn : w.Nested) {level : Nat} {group : OpenGroup} :
    group ∈ (w.closeScopes level).groups ↔ group ∈ w.groups ∧ group.level < level := by
  have hkept : (∀ g ∈ (w.closeScopes level).groups, g ∈ w.groups) ∧
      ∀ g ∈ w.groups, g.level < level → g ∈ (w.closeScopes level).groups := by
    refine closeScopes_induct (P := fun v => (∀ g ∈ v.groups, g ∈ w.groups) ∧
      ∀ g ∈ w.groups, g.level < level → g ∈ v.groups) ?_ ⟨fun _ => id, fun _ hg _ => hg⟩
    rintro v s hs ⟨hsub, hall⟩
    cases s with
    | overlay overlay outer => exact ⟨hsub, hall⟩
    | group g outer =>
      obtain ⟨hg, hl, -⟩ := nextScope?_eq_group_iff.1 hs
      rw [close, groups_closeGroup]
      refine ⟨fun e he => hsub e (hg ▸ List.mem_cons_of_mem _ he), fun e he hel => ?_⟩
      rcases List.mem_cons.1 (hg ▸ hall e he hel) with rfl | he
      · omega
      · exact he
  have hlevels := ((hn.closeScopes level).levels_lt (nextScope?_closeScopes level w)).1
  exact ⟨fun hg => ⟨hkept.1 group hg, hlevels group hg⟩, fun hg => hkept.2 group hg.1 hg.2⟩

/-- The innermost open group is the latest one. -/
theorem Nested.head_eq_groupAround? (hn : w.Nested) {i : Nat}
    (ho : ∀ p, w.IsOpen p ↔ Surrounds items p i) :
    w.groups.head?.map (·.index) = groupAround? items i := by
  symm
  cases hg : w.groups with
  | nil =>
    refine groupAround?_eq_none_iff.2 fun p hp => ?_
    obtain ⟨group, hm, -⟩ := (ho p).2 hp
    rw [hg] at hm
    cases hm
  | cons group outer =>
    have hindices := hn.group_indices
    rw [hg, List.pairwise_cons] at hindices
    refine groupAround?_eq_some_iff.2
      ⟨(ho _).1 ⟨group, hg ▸ List.mem_cons_self, rfl⟩, fun q hq => ?_⟩
    obtain ⟨g, hm, rfl⟩ := (ho q).2 hq
    rcases List.mem_cons.1 (hg ▸ hm) with rfl | hm
    · exact Nat.le_refl _
    · exact Nat.le_of_lt (hindices.1 g hm)

/-- A walk over items with some headings: they are in the groups that the headings determine, and
the open groups are those that surround whatever comes next. -/
structure Outlined (items : List Heading) (w : Walk) : Prop where
  headings_eq : w.declared.map Field.heading = items
  parents_eq : w.declared.map (·.parent) = (List.range items.length).map (groupAround? items)
  heading_of_group : ∀ group ∈ w.groups, items[group.index]? = some ⟨group.level, true⟩
  isOpen_iff : ∀ p, w.IsOpen p ↔ Surrounds items p items.length

namespace Outlined

theorem length_eq (h : w.Outlined items) : w.slots.length = items.length := by
  rw [← length_declared, ← h.headings_eq, List.length_map]

/-- Closing the level of an item leaves the groups open that surround it. -/
theorem isOpen_closeScopes (h : w.Outlined items) (hn : w.Nested) (x : Heading) (p : Nat) :
    (w.closeScopes x.level).IsOpen p ↔ Surrounds (items ++ [x]) p items.length := by
  rw [surrounds_snoc, ← h.isOpen_iff]
  constructor
  · rintro ⟨group, hm, rfl⟩
    obtain ⟨hg, hl⟩ := (mem_groups_closeScopes hn).1 hm
    exact ⟨⟨group, hg, rfl⟩, _, h.heading_of_group group hg, hl⟩
  · rintro ⟨⟨group, hg, rfl⟩, g, hm, hl⟩
    obtain rfl := Option.some.inj ((h.heading_of_group group hg).symm.trans hm)
    exact ⟨group, (mem_groups_closeScopes hn).2 ⟨hg, hl⟩, rfl⟩

theorem addDeclaration (h : w.Outlined items) (hn : w.Nested) (rules : Rules) {x : Declaration}
    (hk : x.descriptor.kind ≠ .condition) :
    (w.addDeclaration rules x).Outlined (items ++ [x.heading]) := by
  obtain ⟨target, v, slot, hp⟩ := places_declare rules (w.closeScopes x.descriptor.level) hk
  have hopen := h.isOpen_closeScopes hn x.heading
  have hdeclared : (w.addDeclaration rules x).declared = w.declared ++ [declaredAs slot.field] := by
    rw [Walk.addDeclaration, declared_snoc hp.slots_eq, declared_closeScopes hn]
  have hheading : slot.field.heading = x.heading := by
    rw [Field.heading, hp.level_eq, Field.isGroup, hp.kind_eq]
    rfl
  have hlength : (w.closeScopes x.descriptor.level).slots.length = items.length := by
    rw [← length_declared, declared_closeScopes hn, length_declared, h.length_eq]
  refine ⟨?_, ?_, ?_, ?_⟩
  · rw [hdeclared, List.map_append, h.headings_eq, List.map_singleton, heading_declaredAs, hheading]
  · have hparent : slot.field.parent = groupAround? (items ++ [x.heading]) items.length :=
      hp.parent_eq.trans ((hn.closeScopes _).head_eq_groupAround? hopen)
    rw [hdeclared, List.map_append, h.parents_eq, List.map_singleton, parent_declaredAs, hparent,
      List.length_append, List.length_singleton, List.range_succ, List.map_append,
      List.map_singleton]
    congr 1
    refine List.map_congr_left fun i hi => ?_
    rw [groupAround?_append _ (List.mem_range.1 hi)]
  · intro group hm
    rcases (hp.mem_groups hk).1 hm with hm | ⟨hd, rfl⟩
    · have hat := h.heading_of_group group ((mem_groups_closeScopes hn).1 hm).1
      rwa [List.getElem?_append_left (List.getElem?_eq_some_iff.1 hat).1]
    · simp [hlength, Declaration.heading, hd]
  · intro p
    rw [List.length_append, List.length_singleton, surrounds_snoc_succ, ← hopen]
    have hnew : x.heading.isGroup = true ↔ x.descriptor.kind = .group := by
      simp [Declaration.heading]
    constructor
    · rintro ⟨group, hm, rfl⟩
      rcases (hp.mem_groups hk).1 hm with hm | ⟨hd, rfl⟩
      · exact .inl ⟨group, hm, rfl⟩
      · exact .inr ⟨hlength, hnew.2 hd⟩
    · rintro (⟨group, hm, rfl⟩ | ⟨rfl, hg⟩)
      · exact ⟨group, (hp.mem_groups hk).2 (.inl hm), rfl⟩
      · exact ⟨_, (hp.mem_groups hk).2 (.inr ⟨hnew.1 hg, rfl⟩), hlength⟩

end Outlined

/-- The data items of a walk are nested as their headings determine. -/
theorem outlined_runDeclarations (rules : Rules) (xs : List Declaration)
    (hk : ∀ x ∈ xs, x.descriptor.kind ≠ .condition) :
    (runDeclarations rules xs).fields.map Field.heading = xs.map Declaration.heading ∧
      (runDeclarations rules xs).fields.map (·.parent) =
        (List.range xs.length).map (groupAround? (xs.map Declaration.heading)) := by
  have hstart : (start rules).Outlined (([] : List Declaration).map Declaration.heading) := by
    refine ⟨rfl, rfl, by simp [start], fun p => ?_⟩
    simp [IsOpen, start, Surrounds]
  obtain ⟨hn, h⟩ := declarations_induct (P := fun ys v => v.Outlined (ys.map Declaration.heading))
    hstart (fun ys v y hy hnv hv => by simpa using hv.addDeclaration hnv rules hy) hk
  have hview : ∀ {α : Type} (g : Field → α), (∀ f, g (declaredAs f) = g f) →
      (runDeclarations rules xs).fields.map g =
        (xs.foldl (Walk.addDeclaration rules) (start rules)).declared.map g := by
    intro α g hg
    rw [← declared_closeScopes hn 0, declared, List.map_map]
    exact List.map_congr_left fun f _ => (hg f).symm
  rw [hview _ heading_declaredAs, hview _ parent_declaredAs]
  exact ⟨h.headings_eq, by simpa using h.parents_eq⟩

end Walk

/-! ## Records -/

/-- What is known of the parents of all data items is known of each. -/
theorem parent_of_map_dataFields {fields : List Field} {n : Nat} {g : Nat → Option Nat}
    (h : (dataFields id fields).map (·.parent) = (List.range n).map g) {i : Nat} {f : Field}
    (hi : fields[i]? = some f) (hd : f.isData = true) :
    f.parent.map (dataRank fields) = g (dataRank fields i) := by
  have hat := getElem?_dataFields_rank id hi hd
  have hlength := congrArg List.length h
  rw [List.length_map, List.length_map, List.length_range] at hlength
  have hlt : dataRank fields i < n := hlength ▸ (List.getElem?_eq_some_iff.1 hat).1
  have hget := congrArg (·[dataRank fields i]?) h
  rw [List.getElem?_map, hat, List.getElem?_map, List.getElem?_range hlt] at hget
  exact Option.some.inj hget

/-- Level numbers alone decide on nesting.  The data items of a walk are its declarations, in order,
and the group around an item is the latest group before it such that all items since, itself
included, are deeper; there is none around it if there is no such group.  When fields are dropped,
the parent of an item that stays becomes the latest group around it that stays. -/
theorem parent_is_latest_surrounding_group (rules : Rules) (entries : List Entry) :
    let declarations := entries.filterMap Entry.declaration?
    let items := declarations.map Declaration.heading
    let all := (Walk.run rules entries).fields
    let image := image? rules.config.fieldProcessing all
    Walk.outline all = declarations.map (fun x => (x.entry.line, x.descriptor.level)) ∧
    (all.filter Field.isData).map Field.heading = items ∧
    (∀ (i : Nat) (f : Field), all[i]? = some f → f.isData = true →
      f.parent.map (dataRank all) = groupAround? items (dataRank all i)) ∧
    ∀ (i k : Nat) (f : Field), all[i]? = some f → f.isData = true → image i = some k →
      ∃ f', (ofEntries rules entries).fields[k]? = some f' ∧ ∀ p', f'.parent = some p' ↔
        ∃ p, Encloses all p i ∧ image p = some p' ∧
          ∀ q, Encloses all q i → (image q).isSome = true → q ≤ p := by
  intro declarations items all image
  obtain ⟨hheadings, hparents⟩ := Walk.outlined_runDeclarations rules declarations
    fun x => Walk.kind_of_mem_declarations
  rw [← Walk.dataFields_run] at hheadings hparents
  refine ⟨Walk.outline_run rules entries, ?_, fun i f => parent_of_map_dataFields hparents,
    fun i k f hi hd => exists_parent_of_image rules (Walk.linked_run rules entries).links hi
      (isData_iff.1 hd)⟩
  rw [dataFields, List.map_map] at hheadings
  exact hheadings

/-- A level that skips back between two others, behind a condition name and a rejected entry.  The
filler that holds the item is dropped, so the item moves up. -/
theorem parent_is_latest_surrounding_group_skipped_level :
    let lines := (Source.ofLines (["01 A.", "   05 FILLER.", "      10 B PIC X.",
      "         88 B-SET VALUE 'Y'.", "   99 BAD PIC X.", "      07 C PIC X.", "   03 D.",
      "      04 E REDEFINES B PIC X."].map String.toList)).content
    let entries := Entry.ofLines none lines
    let rules := Rules.standard {} .undivided
    let items := (entries.filterMap Entry.declaration?).map Declaration.heading
    let all := (Walk.run rules entries).fields
    let image := image? rules.config.fieldProcessing all
    Rules.interpretWith .plain {} = .ok rules ∧
      all.map (fun f => (f.name, f.parent)) = [("A", none), ("FILLER", some 0), ("B", some 1),
        ("B-SET", none), ("C", some 1), ("D", some 0), ("E", some 5)] ∧
      (ofEntries rules entries).fields.map (fun f => (f.name, f.parent)) = [("A", none),
        ("B", some 0), ("B-SET", none), ("C", some 0), ("D", some 0), ("E", some 4)] ∧
      ∃ f, all[4]? = some f ∧ f.parent.map (dataRank all) = groupAround? items (dataRank all 4) ∧
        ∃ f', (ofEntries rules entries).fields[3]? = some f' ∧ ∀ p', f'.parent = some p' ↔
          ∃ p, Encloses all p 4 ∧ image p = some p' ∧
            ∀ q, Encloses all q 4 → (image q).isSome = true → q ≤ p := by
  intro lines entries rules items all image
  have hitem : ∃ f, all[4]? = some f ∧ f.isData = true := by
    have hsome : ∃ f ∈ all[4]?, f.isData = true := by decide +kernel
    exact hsome
  have himage : image 4 = some 3 := by decide +kernel
  obtain ⟨f, hf, hd⟩ := hitem
  obtain ⟨-, -, hparent, hkept⟩ := parent_is_latest_surrounding_group rules entries
  exact ⟨Rules.interpret_default, by decide +kernel, by decide +kernel, f, hf, hparent 4 f hf hd,
    hkept 4 3 f hf hd himage⟩

end Record

end DataDivision
