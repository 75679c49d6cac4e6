import DataDivision.Entry.Basic
import DataDivision.Field
import DataDivision.Rules.Basic

/-!
Laying out a record.

One pass over the entries of a record gives every field its parent and its bytes.  Level numbers
alone decide on nesting: an entry closes every open group of its own level or deeper.  A cursor
stands behind the bytes handed out so far.  Elementary items move it on, a group that occurs several
times moves it on when it closes, and a redefinition moves it back to the start of the storage it
redefines; once the redefinition is closed, the cursor goes behind the longest layout of that
storage.
-/

namespace DataDivision.Record

/-- A field, the cursor behind it, and the span of its entry. -/
structure Slot where
  field : Field
  limit : Nat
  span : Span
  deriving DecidableEq, Repr

/-- A group whose items are still being read. -/
structure OpenGroup where
  index : Nat
  level : Nat
  span : Span
  /-- The usage of items inside that have none of their own. -/
  usage : Option String
  deriving DecidableEq, Repr

/-- A redefinition that is still being read. -/
structure OpenOverlay where
  level : Nat
  base : Nat
  /-- Where the cursor goes afterwards, at least. -/
  resume : Nat
  deriving DecidableEq, Repr

/-- The state of the walk.  Open groups and overlays stand innermost first. -/
structure Walk where
  slots : List Slot := []
  diagnostics : List Diagnostic := []
  groups : List OpenGroup := []
  overlays : List OpenOverlay := []
  /-- The end of the longest layout seen so far of each redefined storage, latest first. -/
  shared : List (Nat × Nat) := []
  lastElementary : Option Nat := none
  cursor : Nat
  /-- A position beyond the last one has been reported. -/
  tooLarge : Bool := false
  deriving DecidableEq, Repr

/-! ## Links -/

/-- An index, followed by those that `next` leads to; every link goes back to an earlier index. -/
def chain (next : Nat → Option Nat) (i : Nat) : List Nat :=
  i :: match next i with
    | some j => if j < i then chain next j else []
    | none => []
termination_by i

/-- Where following `next` ends. -/
def chainEnd (next : Nat → Option Nat) (i : Nat) : Nat :=
  match next i with
  | some j => if j < i then chainEnd next j else i
  | none => i
termination_by i

theorem mem_chain_le {next : Nat → Option Nat} {i j : Nat} (h : j ∈ chain next i) : j ≤ i := by
  induction i using Nat.strongRecOn with
  | _ i ih =>
    rw [chain] at h
    rcases List.mem_cons.1 h with rfl | h
    · exact Nat.le_refl _
    · split at h
      · split at h
        · rename_i k _ hk
          exact Nat.le_of_lt (Nat.lt_of_le_of_lt (ih k hk h) hk)
        · simp at h
      · simp at h

theorem chainEnd_mem_chain (next : Nat → Option Nat) (i : Nat) :
    chainEnd next i ∈ chain next i := by
  induction i using Nat.strongRecOn with
  | _ i ih =>
    rw [chain, chainEnd]
    split
    · split
      · rename_i k _ hk
        exact List.mem_cons_of_mem _ (ih k hk)
      · simp
    · simp

/-- The field that the field at an index redefines. -/
def targetOf (fields : List Field) (i : Nat) : Option Nat := fields[i]?.bind (·.redefinesTarget)

/-- The group around the field at an index. -/
def parentOf (fields : List Field) (i : Nat) : Option Nat := fields[i]?.bind (·.parent)

/-- The field whose storage the field at an index lays out. -/
def baseOf (fields : List Field) (i : Nat) : Nat := chainEnd (targetOf fields) i

namespace Walk

/-- A walk at the first byte behind the record type code. -/
def start (rules : Rules) : Walk where
  cursor := rules.startPosition + rules.codeWidth

def fields (w : Walk) : List Field := w.slots.map (·.field)

def report (w : Walk) (d : Diagnostic) : Walk := { w with diagnostics := w.diagnostics ++ [d] }

def push (w : Walk) (field : Field) (span : Span) : Walk :=
  { w with slots := w.slots ++ [⟨field, w.cursor, span⟩] }

/-! ## Positions -/

def tooLargeDiagnostic (name : String) (span : Span) : Diagnostic where
  severity := .error
  code := some .recordTooLarge
  message := s!"`{name}` extends the record past {Storage.maxRecordLength} bytes"
  labels := [⟨span, "record too large", true⟩]
  help := some "check the OCCURS counts of this field and its enclosing groups"

/-- The position behind a field, cut off behind the last byte of the largest record.  The first
field beyond it is reported.  A position that is no 64-bit number is beyond it, too. -/
def bound (w : Walk) (next : Option Nat) (name : String) (span : Span) : Nat × Walk :=
  match next.filter (· ≤ Storage.maxRecordLength + 1) with
  | some next => (next, w)
  | none =>
    (Storage.maxRecordLength + 1,
      if w.tooLarge then w
      else { w.report (tooLargeDiagnostic name span) with tooLarge := true })

/-! ## Closing -/

/-- Closes a group: it ends at the cursor, or behind its last repetition. -/
def closeGroup (w : Walk) (group : OpenGroup) (outer : List OpenGroup) : Walk :=
  match w.slots[group.index]? with
  | none => { w with groups := outer }
  | some slot =>
    let first := slot.field.startPosition
    let width := Storage.mul? (w.cursor - first) (Storage.repeatCount slot.field.occurs)
    let (next, w) := w.bound (width.bind (Storage.add? first)) slot.field.name group.span
    let last := if first < next then next - 1 else first
    { w with
      slots := w.slots.set group.index
        { slot with field := slot.field.setExtent first last, limit := next }
      groups := outer
      cursor := max w.cursor next }

/-- Closes a redefinition: the cursor goes behind the longest layout of its storage. -/
def closeOverlay (w : Walk) (overlay : OpenOverlay) (outer : List OpenOverlay) : Walk :=
  let next := max w.cursor overlay.resume
  { w with shared := (overlay.base, next) :: w.shared, overlays := outer, cursor := next }

@[simp] theorem groups_closeGroup (w : Walk) (group : OpenGroup) (outer : List OpenGroup) :
    (w.closeGroup group outer).groups = outer := by
  unfold closeGroup
  split <;> rfl

@[simp] theorem overlays_bound (w : Walk) (next : Option Nat) (name : String) (span : Span) :
    (w.bound next name span).2.overlays = w.overlays := by
  unfold bound
  split
  · rfl
  · dsimp only
    split <;> rfl

@[simp] theorem overlays_closeGroup (w : Walk) (group : OpenGroup) (outer : List OpenGroup) :
    (w.closeGroup group outer).overlays = w.overlays := by
  unfold closeGroup
  split
  · rfl
  · exact overlays_bound w _ _ _

/-- The innermost redefinition is due before the innermost group: it has the level or a deeper one,
and a deeper one than the group. -/
def overlayIsDue (level : Nat) (overlay : OpenOverlay) (groups : List OpenGroup) : Bool :=
  level ≤ overlay.level &&
    match groups with
    | [] => true
    | group :: _ => group.level < level || group.level < overlay.level

/-- Closes the innermost group, if it has the given level or a deeper one. -/
def closeGroup? (level : Nat) (w : Walk) : Option Walk :=
  match w.groups with
  | [] => none
  | group :: outer => if level ≤ group.level then some (w.closeGroup group outer) else none

/-- Closes the innermost group or redefinition that has the given level or a deeper one. -/
def closeScope? (level : Nat) (w : Walk) : Option Walk :=
  match w.overlays with
  | [] => w.closeGroup? level
  | overlay :: outer =>
    if overlayIsDue level overlay w.groups then some (w.closeOverlay overlay outer)
    else w.closeGroup? level

/-- The number of open groups and redefinitions. -/
def depth (w : Walk) : Nat := w.groups.length + w.overlays.length

theorem depth_closeGroup? {level : Nat} {w w' : Walk} (h : w.closeGroup? level = some w') :
    w'.depth < w.depth := by
  unfold closeGroup? at h
  split at h
  · simp at h
  · rename_i group outer hg
    split at h
    · simp only [Option.some.injEq] at h
      subst h
      simp [depth, hg]
    · simp at h

theorem depth_closeScope? {level : Nat} {w w' : Walk} (h : w.closeScope? level = some w') :
    w'.depth < w.depth := by
  unfold closeScope? at h
  split at h
  · exact depth_closeGroup? h
  · rename_i overlay outer ho
    split at h
    · simp only [Option.some.injEq] at h
      subst h
      simp [depth, closeOverlay, ho]
    · exact depth_closeGroup? h

/-- Closes the groups and redefinitions of the given level or deeper, innermost first. -/
def closeScopes (level : Nat) (w : Walk) : Walk :=
  match _h : w.closeScope? level with
  | some w' => closeScopes level w'
  | none => w
termination_by w.depth
decreasing_by exact depth_closeScope? _h

/-! ## Redefinitions -/

/-- The latest field with the given name that is no condition name. -/
def target? (w : Walk) (name : String) : Option Nat :=
  (w.fields.zipIdx.reverse.find? fun (f, _) =>
    !f.isCondition && Text.sameIgnoringCase f.name name).map (·.2)

def undefinedTarget (name target : String) (span : Span) : Diagnostic :=
  Diagnostic.about .undefinedTarget
    s!"`{name}` redefines `{target}`, which is not defined earlier in the record" span
    "laid out sequentially"

def levelMismatch (d : Entry.Descriptor) (span : Span) (target : Slot) : Diagnostic where
  severity := .warning
  code := some .levelMismatch
  message :=
    let own := Text.twoDigits d.level
    let name := target.field.name
    let level := Text.twoDigits target.field.level
    s!"`{d.name}` at level {own} redefines `{name}` at level {level}"
  labels :=
    [⟨span, "level " ++ Text.twoDigits d.level ++ " here", true⟩,
      ⟨target.span, "target declared at level " ++ Text.twoDigits target.field.level, false⟩]
  help := some "a redefining entry must have the same level as its target"

/-- Opens the redefinition of the named field, if there is one, and returns the field's index. -/
def openOverlay (w : Walk) (rules : Rules) (d : Entry.Descriptor) (span : Span) (name : String) :
    Option Nat × Walk :=
  match w.target? name with
  | none => (none, w.report (undefinedTarget d.name name span))
  | some i =>
    match w.slots[i]?, w.slots[baseOf w.fields i]? with
    | some target, some baseSlot =>
      let w := if target.field.level ≠ d.level ∧ rules.config.validation.validateRedefines = true
        then w.report (levelMismatch d span target)
        else w
      let base := baseOf w.fields i
      let resume :=
        max (max (max ((w.shared.lookup base).getD 0) target.limit) baseSlot.limit) w.cursor
      (some i, { w with
        overlays := ⟨d.level, base, resume⟩ :: w.overlays
        cursor := baseSlot.field.startPosition })
    | _, _ => (none, w)

/-! ## Entries -/

def orphanCondition (name : String) (span : Span) : Diagnostic :=
  { Diagnostic.about .orphanCondition
      s!"condition name `{name}` has no elementary field to attach to" span "condition dropped" with
    help := some "level-88 entries must follow the elementary field they describe" }

/-- Adds a condition name to the elementary field before it. -/
def addCondition (rules : Rules) (d : Entry.Descriptor) (entry : Entry) (w : Walk) : Walk :=
  if !rules.config.fieldProcessing.processConditions then w
  else
    match w.lastElementary.bind fun i => w.slots[i]?.map fun slot => (i, slot) with
    | none => w.report (orphanCondition d.name entry.span)
    | some (i, slot) =>
      let field := (Field.ofDescriptor d entry.line).setExtent slot.field.startPosition
        slot.field.endPosition
      w.push { field with host := some i } entry.span

def unknownUsage (usage : Option String) (name : String) (span : Span) : Diagnostic :=
  let usage := usage.getD ""
  { Diagnostic.about .unknownUsage
      s!"unknown USAGE `{usage}` for `{name}`, stored as character data" span "unmapped usage" with
    help := some "add the usage to [field_processing.usage_mappings]" }

/-- The encoding of a usage; one that is not known is reported and stored as characters. -/
def resolveUsage (rules : Rules) (usage : Option String) (name : String) (span : Span) (w : Walk) :
    Encoding × Walk :=
  match rules.usages.resolve usage with
  | some encoding => (encoding, w)
  | none => (.character, w.report (unknownUsage usage name span))

/-- Adds a group, which stays open. -/
def addGroup (d : Entry.Descriptor) (entry : Entry) (field : Field) (usage : Option String)
    (w : Walk) : Walk :=
  { w.push (field.setExtent w.cursor w.cursor) entry.span with
    groups := ⟨w.slots.length, d.level, entry.span, usage⟩ :: w.groups }

/-- Adds an elementary item at the cursor and moves the cursor behind it. -/
def addElementary (rules : Rules) (d : Entry.Descriptor) (entry : Entry) (field : Field)
    (usage : Option String) (w : Walk) : Walk :=
  let (encoding, w) := w.resolveUsage rules usage d.name entry.span
  let length := Storage.length .elementary d.shape encoding d.occurs
  let (next, w) := w.bound (Storage.add? w.cursor length) d.name entry.span
  let placed := { field with usage := usage, encoding := encoding }.place w.cursor (next - w.cursor)
  let index := w.slots.length
  { { w with cursor := max w.cursor next }.push placed entry.span with
    lastElementary := some index }

def addField (rules : Rules) (d : Entry.Descriptor) (entry : Entry) (w : Walk) : Walk :=
  let w := w.closeScopes d.level
  let usage := d.usage.or (w.groups.head?.bind (·.usage))
  let field := { Field.ofDescriptor d entry.line with parent := w.groups.head?.map OpenGroup.index }
  let (target, w) := match d.redefines with
    | some name =>
      if rules.config.fieldProcessing.processRedefines then
        w.openOverlay rules d entry.span name
      else (none, w)
    | none => (none, w)
  let field := { field with redefinesTarget := target }
  match d.kind with
  | .group => w.addGroup d entry field usage
  | _ => w.addElementary rules d entry field usage

/-- Takes in one entry.  A rejected entry is reported, and what is no entry is passed over. -/
def addEntry (rules : Rules) (w : Walk) (entry : Entry) : Walk :=
  match Entry.scan entry.text entry.span with
  | .error d => w.report d
  | .ok none => w
  | .ok (some d) =>
    match d.kind with
    | .condition => w.addCondition rules d entry
    | _ => w.addField rules d entry

/-- The whole walk, with everything closed. -/
def run (rules : Rules) (entries : List Entry) : Walk :=
  (entries.foldl (addEntry rules) (start rules)).closeScopes 0

end Walk

end DataDivision.Record
