import DataDivision.Layout.Basic
import DataDivision.Proofs.Checked.Prune
import DataDivision.Proofs.Layout.Sweep

/-!
Checked layouts.

The children of a field stand behind it, so looking for storage inside it ends
(`Fields.hasStorage_eq`).  The sweep reads fields by the indices of fields (`find_eq`), and no field
with bytes reaches beyond the largest record, so the position behind it is a 64-bit number
(`assemble_eq`).
-/

namespace DataDivision.Checked

/-! ## Storage inside fields -/

def Fields.hasStorage (fields : Fields) (f : Field) : Option Bool :=
  if f.isElementary then some (0 < f.storageLength)
  else (f.children.filterMap fun c => fields[c]?).anyM (fields |>.hasStorage ·)
partial_fixpoint

def minLength (recordLevels : List Nat) (fields : List Field) : Option Nat := do
  let records ← fields.filterM fun f =>
    if f.parent.isNone && !f.isCondition && recordLevels.contains f.level then
      Fields.hasStorage fields f
    else some false
  return ((records.map (·.endPosition)).min?).getD (Layout.totalLength fields)

def statisticsOf (recordLevels : List Nat) (fields : List Field) : Option Statistics := do
  let shortest ← minLength recordLevels fields
  return { Layout.statisticsOf recordLevels fields with minLength := shortest }

section

variable {fields : List Field}

/-- Children stand behind their group, so fewer fields are left at each turn. -/
theorem Fields.hasStorage_eq_within (ha : Record.IsArena fields) {depth i : Nat} {f : Field}
    (hi : fields[i]? = some f) (hd : fields.length ≤ i + depth + 1) :
    Fields.hasStorage fields f = some (Layout.hasStorageWithin fields depth f) := by
  have hchild : ∀ c ∈ f.children, ∃ g, fields[c]? = some g ∧ i < c := by
    intro c hc
    obtain ⟨g, hg, hp⟩ := (ha.mem_children_iff i f hi c).1 hc
    exact ⟨g, hg, ((ha.links c g hg).parent i hp).1⟩
  induction depth generalizing i f with
  | zero =>
    have hnone : f.children = [] := by
      refine List.eq_nil_iff_forall_not_mem.2 fun c hc => ?_
      obtain ⟨g, hg, hlt⟩ := hchild c hc
      have := (List.getElem?_eq_some_iff.1 hg).1
      omega
    rw [Fields.hasStorage, Layout.hasStorageWithin, hnone]
    cases f.isElementary <;> rfl
  | succ depth ih =>
    rw [Fields.hasStorage, Layout.hasStorageWithin]
    split
    · rfl
    · have hall : (f.children.filterMap fun c => fields[c]?).anyM (Fields.hasStorage fields) =
          some ((f.children.filterMap fun c => fields[c]?).any
            (Layout.hasStorageWithin fields depth)) := by
        refine anyM_eq_some fun g hg => ?_
        obtain ⟨c, hc, hgc⟩ := List.mem_filterMap.1 hg
        obtain ⟨-, -, hlt⟩ := hchild c hc
        refine ih hgc (by omega) fun d hd => ?_
        obtain ⟨x, hx, hp⟩ := (ha.mem_children_iff c g hgc d).1 hd
        exact ⟨x, hx, ((ha.links d x hx).parent c hp).1⟩
      rw [hall, List.any_filterMap]
      refine congrArg (fun p => some (f.children.any p)) (funext fun c => ?_)
      cases fields[c]? <;> rfl

theorem Fields.hasStorage_eq (ha : Record.IsArena fields) {f : Field} (hf : f ∈ fields) :
    Fields.hasStorage fields f = some (Layout.hasStorage fields f) := by
  obtain ⟨i, hi⟩ := List.mem_iff_getElem?.1 hf
  exact Fields.hasStorage_eq_within ha hi (by omega)

theorem statisticsOf_eq (ha : Record.IsArena fields) (recordLevels : List Nat) :
    statisticsOf recordLevels fields = some (Layout.statisticsOf recordLevels fields) := by
  have hrecords : (fields.filterM fun f =>
      if f.parent.isNone && !f.isCondition && recordLevels.contains f.level then
        Fields.hasStorage fields f
      else some false) = some (fields.filter fun f => f.parent.isNone && !f.isCondition &&
        recordLevels.contains f.level && Layout.hasStorage fields f) := by
    refine filterM_eq_some fun f hf => ?_
    rw [Fields.hasStorage_eq ha hf]
    split <;> simp_all
  have hmin : minLength recordLevels fields = some (Layout.minLength recordLevels fields) := by
    rw [minLength, hrecords]
    rfl
  rw [statisticsOf, hmin]
  rfl

end

/-! ## Overlaps -/

/-- The fields at two indices may share bytes. -/
def isExplained (fields : List Field) (i j : Nat) : Option Bool := do
  let first ← fields[i]?
  let second ← fields[j]?
  return first.sharesStorageWith second

/-- Sweeps over fields in order, all of which are given by their indices. -/
def sweep (fields : List Field) (active : List Nat) : List Nat → Option (List Layout.Overlap)
  | [] => some []
  | next :: rest => do
    let f ← fields[next]?
    let reaching ← active.filterM fun i =>
      fields[i]?.map fun g => decide (f.startPosition ≤ g.endPosition)
    let mistakes ← reaching.filterM fun i => (isExplained fields i next).map (!·)
    let more ← sweep fields (reaching ++ [next]) rest
    return mistakes.map (fun i => ⟨i, next⟩) ++ more

def find (fields : List Field) : Option (List Layout.Overlap) := do
  let stored := Record.indicesOf fields fun f => f.isElementary && 0 < f.storageLength
  let keyed ← stored.mapM fun i => fields[i]?.map fun f => (f, i)
  sweep fields [] ((keyed.mergeSort Layout.Overlap.precedes).map (·.2))

def describe (fields : List Field) (o : Layout.Overlap) : Option String := do
  let first ← fields[o.first]?
  let second ← fields[o.second]?
  return Layout.Overlap.extent second ++ " overlaps " ++ Layout.Overlap.extent first ++
    " without REDEFINES"

section

variable {fields : List Field}

theorem sweep_eq {active rest : List Layout.Indexed} (ha : ∀ x ∈ active, fields[x.2]? = some x.1)
    (hr : ∀ x ∈ rest, fields[x.2]? = some x.1) :
    sweep fields (active.map (·.2)) (rest.map (·.2)) = some (Layout.Overlap.sweep active rest) := by
  induction rest generalizing active with
  | nil => rfl
  | cons next rest ih =>
    have hnext := hr next List.mem_cons_self
    have hreaching : ((active.map (·.2)).filterM fun i =>
        fields[i]?.map fun g => decide (next.1.startPosition ≤ g.endPosition)) =
          some ((active.filter fun a => next.1.startPosition ≤ a.1.endPosition).map (·.2)) :=
      filterM_map_eq_some fun a hm => by rw [ha a hm, Option.map_some]
    have hmistakes : (((active.filter fun a =>
        next.1.startPosition ≤ a.1.endPosition).map (·.2)).filterM fun i =>
          (isExplained fields i next.2).map (!·)) =
            some (((active.filter fun a => next.1.startPosition ≤ a.1.endPosition).filter
              fun a => !a.1.sharesStorageWith next.1).map (·.2)) := by
      refine filterM_map_eq_some fun a hm => ?_
      rw [isExplained, ha a (List.mem_filter.1 hm).1, hnext]
      rfl
    have hactive : ∀ x ∈ active.filter (fun a => next.1.startPosition ≤ a.1.endPosition) ++ [next],
        fields[x.2]? = some x.1 := by
      intro x hx
      rcases List.mem_append.1 hx with hx | hx
      · exact ha x (List.mem_filter.1 hx).1
      · exact List.mem_singleton.1 hx ▸ hnext
    have hmore := ih hactive fun x hx => hr x (List.mem_cons_of_mem _ hx)
    rw [List.map_append, List.map_singleton] at hmore
    rw [List.map_cons, sweep, hnext]
    simp only [Option.bind_eq_bind, Option.bind_some, hreaching, hmistakes, hmore,
      Layout.Overlap.sweep, List.map_map]
    rfl

theorem find_eq (fields : List Field) : find fields = some (Layout.Overlap.find fields) := by
  have hkeyed : (Record.indicesOf fields fun f => f.isElementary && 0 < f.storageLength).mapM
      (fun i => fields[i]?.map fun f => (f, i)) = some (Layout.Overlap.stored fields) := by
    have hstored : Record.indicesOf fields (fun f => f.isElementary && 0 < f.storageLength) =
        (Layout.Overlap.stored fields).map (·.2) := rfl
    rw [hstored, List.mapM_map]
    refine (mapM_eq_some (g := id) fun x hx => ?_).trans (by rw [List.map_id])
    rw [Function.comp_apply, (Layout.Overlap.mem_stored hx).1]
    rfl
  rw [find, hkeyed]
  refine sweep_eq (fun x hx => absurd hx List.not_mem_nil) fun x hx => ?_
  exact (Layout.Overlap.mem_stored (List.mem_mergeSort.1 hx)).1

theorem describe_eq {o : Layout.Overlap} (h : o ∈ Layout.Overlap.find fields) :
    describe fields o = some (o.describe fields) := by
  obtain ⟨f, g, hf, hg, -, -⟩ := Layout.Overlap.exists_of_mem_find h
  rw [describe, Layout.Overlap.describe, hf, hg]
  rfl

end

/-! ## Assembly -/

def lengthComplaint (f : Field) : Option (Option String) :=
  if f.isElementary && 0 < f.storageLength then do
    let behind ← Storage.add? f.startPosition f.storageLength
    let last ← sub behind 1
    return if f.endPosition != last then
        some (s!"`{f.name}` ends at {f.endPosition} but starts at {f.startPosition}" ++
          s!" with {f.storageLength} bytes")
      else none
  else some none

def assemble (a : Layout.Assembler) (recordType : String) (fields : List Field) :
    Option (Layout × List Layout.Overlap) := do
  let statistics ← statisticsOf a.recordLevels fields
  let overlaps ← (if a.checkOverlaps then find fields else some [])
  let descriptions ← overlaps.mapM (describe fields)
  let complaints ← fields.mapM lengthComplaint
  return ({
    recordType := recordType
    layoutName := Layout.nameOf a.template recordType fields
    fields := fields
    statistics := statistics
    messages := descriptions ++ complaints.filterMap id }, overlaps)

theorem lengthComplaint_eq {f : Field}
    (h : 0 < f.storageLength → f.startPosition + f.storageLength ≤ Text.maxWord64) :
    lengthComplaint f = some (Layout.lengthComplaint? f) := by
  unfold lengthComplaint Layout.lengthComplaint?
  cases he : f.isElementary with
  | false => rfl
  | true =>
    by_cases hb : 0 < f.storageLength
    · rw [add?_eq (h hb), Option.bind_eq_bind, Option.bind_some, sub_eq (by omega)]
      simp [hb]
    · simp [hb]

theorem assemble_eq (a : Layout.Assembler) (recordType : String) {fields : List Field}
    (ha : Record.IsArena fields) (hb : ∀ f ∈ fields, 0 < f.storageLength →
      f.startPosition + f.storageLength ≤ Text.maxWord64) :
    assemble a recordType fields = some (a.assemble recordType fields) := by
  have hcomplaints : fields.mapM lengthComplaint = some (fields.map Layout.lengthComplaint?) :=
    mapM_eq_some fun f hf => lengthComplaint_eq (hb f hf)
  have hdescriptions : (Layout.Overlap.find fields).mapM (describe fields) =
      some ((Layout.Overlap.find fields).map (·.describe fields)) :=
    mapM_eq_some fun o ho => describe_eq ho
  unfold assemble Layout.Assembler.assemble
  rw [statisticsOf_eq ha, hcomplaints]
  cases a.checkOverlaps with
  | false => simp [List.filterMap_map]
  | true => simp [find_eq, hdescriptions, List.filterMap_map]

end DataDivision.Checked
