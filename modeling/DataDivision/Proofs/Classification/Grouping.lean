import DataDivision.Classification.Partition
import Mathlib.Algebra.Ring.Nat

/-!
Groups of lines.

Every label has one group, which holds exactly the lines with that label in their order, and the
groups stand in the order in which the labels first appear (`groupBy_eq`).  So classified lines are
divided by their record types: every line is in one group, and nothing else is (`IsGrouping`,
`Partition.Divides`).
-/

namespace DataDivision.Classification

theorem nodup_eraseDups (labels : List String) : labels.eraseDups.Nodup := by
  induction hn : labels.length using Nat.strongRecOn generalizing labels with
  | _ n ih =>
    cases labels with
    | nil => simp
    | cons l rest =>
      rw [List.eraseDups_cons, List.nodup_cons]
      constructor
      · simp [List.mem_eraseDups]
      · refine ih _ ?_ _ rfl
        have := List.length_filter_le (fun b => !b == l) rest
        rw [← hn, List.length_cons]
        omega

/-- The labels of some lines in the order of first appearance, each with its lines. -/
def groups (label : Line → String) (lines : List Line) : List (String × List Line) :=
  (lines.map label).eraseDups.map fun l => (l, lines.filter fun x => label x == l)

/-- A line with a label that has no group yet begins one. -/
theorem addLine_of_not_mem {labels : List String} {l : String} (f : String → List Line)
    (x : Line) (h : l ∉ labels) :
    addLine l x (labels.map fun k => (k, f k)) =
      labels.map (fun k => (k, f k)) ++ [(l, [x])] := by
  induction labels with
  | nil => rfl
  | cons k rest ih =>
    obtain ⟨hk, hr⟩ := not_or.1 (mt List.mem_cons.2 h)
    simp only [List.map_cons, addLine, if_neg (Ne.symm hk), ih hr, List.cons_append]

/-- A line with a label that has a group is added at its end. -/
theorem addLine_of_mem {labels : List String} {l : String} (f : String → List Line) (x : Line)
    (hn : labels.Nodup) (h : l ∈ labels) :
    addLine l x (labels.map fun k => (k, f k)) =
      labels.map fun k => (k, if k = l then f k ++ [x] else f k) := by
  induction labels with
  | nil => cases h
  | cons k rest ih =>
    obtain ⟨hk, hrest⟩ := List.nodup_cons.1 hn
    by_cases he : k = l
    · subst he
      simp only [List.map_cons, addLine, ↓reduceIte]
      congr 1
      refine List.map_congr_left fun j hj => ?_
      have hne : j ≠ k := fun hjk => hk (hjk ▸ hj)
      simp [hne]
    · have hl : l ∈ rest := by
        rcases List.mem_cons.1 h with rfl | hl
        · exact absurd rfl he
        · exact hl
      simp only [List.map_cons, addLine, if_neg he, ih hrest hl]

theorem addLine_groups (label : Line → String) (before : List Line) (x : Line) :
    addLine (label x) x (groups label before) = groups label (before ++ [x]) := by
  have hfilter : ∀ l, (before ++ [x]).filter (fun y => label y == l) =
      if l = label x then before.filter (fun y => label y == l) ++ [x]
      else before.filter fun y => label y == l := by
    intro l
    by_cases h : l = label x
    · simp [h]
    · simp [h, Ne.symm h]
  unfold groups
  rw [List.map_append, List.eraseDups_append, List.map_singleton]
  by_cases hm : label x ∈ before.map label
  · rw [addLine_of_mem _ x (nodup_eraseDups _) (List.mem_eraseDups.2 hm)]
    have hempty : [label x].removeAll (before.map label) = [] := by
      simpa [List.removeAll] using hm
    simp only [hempty, List.eraseDups_nil, List.append_nil, hfilter]
  · rw [addLine_of_not_mem _ x (mt List.mem_eraseDups.1 hm)]
    have hone : [label x].removeAll (before.map label) = [label x] := by
      simpa [List.removeAll] using hm
    have hnone : before.filter (fun y => label y == label x) = [] := by
      rw [List.filter_eq_nil_iff]
      intro y hy he
      exact hm (List.mem_map.2 ⟨y, hy, by simpa using he⟩)
    simp only [hone, List.map_append, List.eraseDups_cons, List.filter_nil, List.eraseDups_nil,
      List.map_cons, List.map_nil, hfilter, hnone, ↓reduceIte, List.nil_append]
    congr 1
    refine List.map_congr_left fun l hl => ?_
    have hne : l ≠ label x := fun he => hm (List.mem_eraseDups.1 (he ▸ hl))
    simp [hne]

theorem groupBy_eq (label : Line → String) (lines : List Line) :
    groupBy label lines = groups label lines := by
  have hfold : ∀ before, lines.foldl (fun acc x => addLine (label x) x acc) (groups label before) =
      groups label (before ++ lines) := by
    induction lines with
    | nil => simp
    | cons x rest ih =>
      intro before
      simp only [List.foldl_cons, addLine_groups, ih, List.append_assoc, List.cons_append,
        List.nil_append]
  exact hfold []

/-! ## Groups -/

/-- Lines in groups by a label. -/
structure IsGrouping (label : Line → String) (lines : List Line)
    (records : List (String × List Line)) : Prop where
  /-- Every line is in one group, as often as it is among the lines, and nothing else is. -/
  perm : (records.flatMap (·.2)).Perm lines
  /-- The lines of a group have its label. -/
  labelled : ∀ r ∈ records, ∀ line ∈ r.2, label line = r.1
  /-- The lines of a group are in their order. -/
  sublist : ∀ r ∈ records, r.2.Sublist lines
  nonempty : ∀ r ∈ records, r.2 ≠ []
  distinct : (records.map (·.1)).Nodup
  /-- The groups are in the order of their first lines. -/
  ordered : records.Pairwise fun r s =>
    (lines.map label).idxOf r.1 < (lines.map label).idxOf s.1

/-- A line is added once. -/
theorem perm_addLine (l : String) (x : Line) (records : List (String × List Line)) :
    ((addLine l x records).flatMap (·.2)).Perm (x :: records.flatMap (·.2)) := by
  induction records with
  | nil => simp [addLine]
  | cons r rest ih =>
    obtain ⟨k, lines⟩ := r
    rw [addLine]
    split
    · simp
    · simp only [List.flatMap_cons]
      exact (ih.append_left lines).trans List.perm_middle

theorem perm_groupBy (label : Line → String) (lines : List Line) :
    ((groupBy label lines).flatMap (·.2)).Perm lines := by
  have hfold : ∀ records, ((lines.foldl (fun acc x => addLine (label x) x acc) records).flatMap
      (·.2)).Perm (records.flatMap (·.2) ++ lines) := by
    induction lines with
    | nil => simp
    | cons x rest ih =>
      intro records
      refine (ih _).trans (((perm_addLine _ x records).append_right rest).trans ?_)
      exact List.perm_middle.symm
  exact hfold []

/-- Members that are left out do not change the order of the others. -/
theorem idxOf_lt_of_filter {p : String → Bool} {labels : List String} {a b : String}
    (ha : p a = true) (hb : p b = true)
    (h : (labels.filter p).idxOf a < (labels.filter p).idxOf b) :
    labels.idxOf a < labels.idxOf b := by
  induction labels with
  | nil => exact h
  | cons l rest ih =>
    cases hl : p l with
    | true =>
      rw [List.filter_cons_of_pos hl, List.idxOf_cons, List.idxOf_cons] at h
      rw [List.idxOf_cons, List.idxOf_cons]
      cases hal : l == a <;> cases hbl : l == b <;> simp_all
    | false =>
      have hal : (l == a) = false := by
        rw [beq_eq_false_iff_ne]
        rintro rfl
        simp [ha] at hl
      have hbl : (l == b) = false := by
        rw [beq_eq_false_iff_ne]
        rintro rfl
        simp [hb] at hl
      rw [List.filter_cons_of_neg (by simp [hl])] at h
      rw [List.idxOf_cons, List.idxOf_cons, hal, hbl]
      exact Nat.add_lt_add_right (ih h) 1

/-- Without repetitions, labels stand in the order of their first appearance. -/
theorem pairwise_eraseDups (labels : List String) :
    labels.eraseDups.Pairwise fun a b => labels.idxOf a < labels.idxOf b := by
  induction hn : labels.length using Nat.strongRecOn generalizing labels with
  | _ n ih =>
    cases labels with
    | nil => simp
    | cons l rest =>
      have hne : ∀ a ∈ (rest.filter fun b => !b == l).eraseDups, (a == l) = false := by
        intro a ha
        simpa using (List.mem_filter.1 (List.mem_eraseDups.1 ha)).2
      rw [List.eraseDups_cons, List.pairwise_cons]
      refine ⟨fun a ha => ?_, ?_⟩
      · have hal := hne a ha
        rw [Bool.beq_comm] at hal
        simp [List.idxOf_cons, hal]
      · have hlen : (rest.filter fun b => !b == l).length < n := by
          have := List.length_filter_le (fun b => !b == l) rest
          rw [← hn, List.length_cons]
          omega
        refine (ih _ hlen _ rfl).imp_of_mem fun {a b} ha hb hab => ?_
        have hal := hne a ha
        have hbl := hne b hb
        have hlt := idxOf_lt_of_filter (by simp [hal]) (by simp [hbl]) hab
        rw [Bool.beq_comm] at hal hbl
        simpa [List.idxOf_cons, hal, hbl] using hlt

theorem map_fst_groups (label : Line → String) (lines : List Line) :
    (groups label lines).map (·.1) = (lines.map label).eraseDups := by
  simp [groups, Function.comp_def]

theorem mem_groups {label : Line → String} {lines : List Line} {r : String × List Line} :
    r ∈ groups label lines ↔
      r.1 ∈ lines.map label ∧ r.2 = lines.filter fun x => label x == r.1 := by
  obtain ⟨l, ls⟩ := r
  simp only [groups, List.mem_map, List.mem_eraseDups, Prod.mk.injEq]
  constructor
  · rintro ⟨k, hk, rfl, rfl⟩
    exact ⟨hk, rfl⟩
  · rintro ⟨hl, rfl⟩
    exact ⟨l, hl, rfl, rfl⟩

theorem isGrouping_groupBy (label : Line → String) (lines : List Line) :
    IsGrouping label lines (groupBy label lines) where
  perm := perm_groupBy label lines
  labelled r hr line hline := by
    rw [groupBy_eq] at hr
    rw [(mem_groups.1 hr).2] at hline
    simpa using (List.mem_filter.1 hline).2
  sublist r hr := by
    rw [groupBy_eq] at hr
    rw [(mem_groups.1 hr).2]
    exact List.filter_sublist
  nonempty r hr := by
    rw [groupBy_eq] at hr
    obtain ⟨hl, hlines⟩ := mem_groups.1 hr
    obtain ⟨line, hline, hlabel⟩ := List.mem_map.1 hl
    rw [hlines]
    exact List.ne_nil_of_mem (List.mem_filter.2 ⟨hline, by simp [hlabel]⟩)
  distinct := by
    rw [groupBy_eq, map_fst_groups]
    exact nodup_eraseDups _
  ordered := by
    have hp := pairwise_eraseDups (lines.map label)
    rw [← map_fst_groups, List.pairwise_map] at hp
    rwa [groupBy_eq]

/-! ## Partitions -/

/-- The partition divides the lines that are not comments by the types that they are given, and
those without a type go to `fallback`. -/
structure Partition.Divides (p : Partition) (type? : Line → Option String) (fallback : String)
    (lines : List Line) : Prop where
  grouping : IsGrouping (fun line => (type? line).getD fallback) lines p.records
  /-- Each group is counted, in the same order. -/
  counted : p.counts.map (·.1) = p.records.map (·.1)
  count : ∀ n ∈ p.counts, n.2 = lines.countP fun line => (type? line).getD fallback == n.1
  sum_counts : (p.counts.map (·.2)).sum = lines.length
  unrecognized : p.unrecognized = lines.filter fun line => (type? line).isNone
  unrecognized_mem : ∀ line ∈ p.unrecognized, ∃ r ∈ p.records, r.1 = fallback ∧ line ∈ r.2

/-- A partition is known from its groups and from the lines without a type. -/
theorem Partition.divides_of_groupBy {p : Partition} {type? : Line → Option String}
    {fallback : String} {lines : List Line}
    (hr : p.records = groupBy (fun line => (type? line).getD fallback) lines)
    (hu : p.unrecognized = lines.filter fun line => (type? line).isNone) :
    p.Divides type? fallback lines where
  grouping := hr ▸ isGrouping_groupBy _ lines
  counted := by simp [counts, Function.comp_def]
  count n hn := by
    obtain ⟨⟨l, group⟩, hrec, rfl⟩ := List.mem_map.1 hn
    rw [hr, groupBy_eq] at hrec
    have hgroup : group = _ := (mem_groups.1 hrec).2
    rw [List.countP_eq_length_filter, hgroup]
  sum_counts := by
    have hperm := (perm_groupBy (fun line => (type? line).getD fallback) lines).length_eq
    rw [← hr, List.length_flatMap] at hperm
    rw [← hperm, counts, List.map_map]
    rfl
  unrecognized := hu
  unrecognized_mem line hline := by
    rw [hu, List.mem_filter, Option.isNone_iff_eq_none] at hline
    have hlabel : (type? line).getD fallback = fallback := by rw [hline.2, Option.getD_none]
    have hmem : (fallback, lines.filter fun x => (type? x).getD fallback == fallback) ∈ p.records := by
      rw [hr, groupBy_eq, mem_groups]
      exact ⟨List.mem_map.2 ⟨line, hline.1, hlabel⟩, rfl⟩
    exact ⟨_, hmem, rfl, List.mem_filter.2 ⟨hline.1, by simp [hlabel]⟩⟩

theorem divides_classify (strategy : Strategy) (fallback : String) (lines : List Line) :
    (classify strategy fallback lines).Divides (fun line => strategy.classify line.text) fallback
      (lines.filter fun line => !line.isComment) :=
  Partition.divides_of_groupBy rfl rfl

/-- All lines under one label are grouped by that label. -/
theorem records_single (label : String) (lines : List Line) (method : String) :
    (Partition.single label lines method).records =
      groupBy (fun _ => label) (lines.filter fun line => !line.isComment) := by
  rw [groupBy_eq, groups]
  unfold Partition.single
  cases lines.filter fun line => !line.isComment with
  | nil => rfl
  | cons line rest =>
    have hrest : (rest.map fun _ => label).filter (fun l => !l == label) = [] := by simp
    have hall : rest.filter (fun _ => label == label) = rest := by simp
    simp only [List.map_cons, List.eraseDups_cons, hrest, List.filter_cons, hall]
    simp

theorem divides_single (label : String) (lines : List Line) (method : String) :
    (Partition.single label lines method).Divides (fun _ => some label) label
      (lines.filter fun line => !line.isComment) :=
  Partition.divides_of_groupBy (records_single label lines method)
    (by simp [Partition.single])

end DataDivision.Classification
