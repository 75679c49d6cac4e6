import DataDivision.Classification.Strategy
import DataDivision.Proofs.Checked.Text

/-!
Checked reading of entries.

The offsets of a record type code and of the kept part of a line are sums of 64-bit numbers.  They
stay in range if the numbers in the rules are signed ones, and if lines end early enough in the
source (`columns_eq`, `ofLines_eq`).
-/

namespace DataDivision

/-- The number is a signed 64-bit one. -/
def IsInt64 (n : Int) : Prop := Text.minInt64 ≤ n ∧ n ≤ Text.maxInt64

theorem isInt64_zero : IsInt64 (0 : Nat) := ⟨by decide, by decide⟩

theorem isInt64_one : IsInt64 (1 : Nat) := ⟨by decide, by decide⟩

/-- Two signed 64-bit numbers that are positive have a 64-bit sum. -/
theorem IsInt64.add_le {m n : Nat} (hm : IsInt64 m) (hn : IsInt64 n) :
    m + n ≤ Text.maxWord64 := by
  obtain ⟨-, hm⟩ := hm
  obtain ⟨-, hn⟩ := hn
  simp only [Text.maxInt64, Text.maxWord64] at *
  omega

/-- The columns of record type codes are counted in signed 64-bit numbers. -/
def Classification.Strategy.Fits : Strategy → Prop
  | .position rule => IsInt64 rule.start ∧ IsInt64 rule.length
  | .character rule => IsInt64 rule.start
  | .conditional rule => IsInt64 rule.start
  | .multiField rule => ∀ test ∈ rule.tests, IsInt64 test.start ∧ IsInt64 test.length
  | .pattern _ | .undivided => True

/-- The line ends at a byte that has a 64-bit number, however its text is read. -/
def Line.Fits (line : Line) : Prop :=
  line.span.start + Text.byteLength line.text ≤ Text.maxWord64

namespace Checked

/-! ## Record type codes -/

/-- The columns behind the code of a test. -/
def testStop (test : Classification.FieldMatch) : Option Nat :=
  Storage.add? test.start test.length

def columns : Classification.Strategy → Option (Option Entry.Columns)
  | .position rule => do
    let stop ← Storage.add? rule.start rule.length
    return some ⟨rule.start - 1, stop - 1⟩
  | .character rule => do
    let stop ← Storage.add? rule.start 1
    return some ⟨rule.start - 1, stop - 1⟩
  | .conditional rule => do
    let stop ← Storage.add? rule.start 1
    return some ⟨rule.start - 1, stop - 1⟩
  | .multiField rule => do
    let stops ← rule.tests.mapM testStop
    match rule.tests.map (·.start), stops with
    | start :: starts, stop :: stops =>
      return some ⟨starts.foldl min start - 1, stops.foldl max stop - 1⟩
    | _, _ => return none
  | .pattern _ | .undivided => some none

theorem columns_eq {strategy : Classification.Strategy} (h : strategy.Fits) :
    columns strategy = some strategy.columns? := by
  cases strategy with
  | position rule =>
    rw [columns, add?_eq (h.1.add_le h.2)]
    rfl
  | character rule =>
    rw [columns, add?_eq (IsInt64.add_le h isInt64_one)]
    rfl
  | conditional rule =>
    rw [columns, add?_eq (IsInt64.add_le h isInt64_one)]
    rfl
  | multiField rule =>
    have hstops : rule.tests.mapM testStop = some (rule.tests.map fun t => t.start + t.length) :=
      mapM_eq_some fun t ht => add?_eq ((h t ht).1.add_le (h t ht).2)
    rw [columns, hstops, Classification.Strategy.columns?]
    cases rule.tests <;> rfl
  | pattern rule => rfl
  | undivided => rfl

/-! ## Spans -/

/-- The part of a span at `first` to `last` relative to its start, cut off at its end. -/
def slice (s : Span) (first last : Nat) : Option Span := do
  let start ← Storage.add? s.start first
  let stop ← Storage.add? s.start last
  return Span.of (min start s.stop) (min stop s.stop)

theorem slice_eq {s : Span} {first last : Nat} (hf : s.start + first ≤ Text.maxWord64)
    (hl : s.start + last ≤ Text.maxWord64) : slice s first last = some (s.slice first last) := by
  rw [slice, add?_eq hf, add?_eq hl]
  rfl

/-! ## Lines -/

def unmask (code : Option Entry.Columns) (text : List Char) : Option (List Char) :=
  match code with
  | none => some text
  | some columns => do
    let (_, kept) ← normalize text
    if Entry.startsEntry kept then return text
    let masked := Entry.mask columns text
    let (_, kept) ← normalize masked
    return if Entry.startsEntry kept then masked else text

def ofLine (code : Option Entry.Columns) (line : Line) : Option (Option Entry) := do
  let raw ← unmask code line.text
  let (offset, text) ← normalize raw
  if Text.allBlank text then return none
  let stop ← Storage.add? offset (Text.byteLength text)
  let span ← slice line.span offset stop
  return some ⟨text, span, line.number⟩

theorem unmask_eq (code : Option Entry.Columns) (text : List Char) :
    unmask code text = some (Entry.unmask code text) := by
  cases code with
  | none => rfl
  | some columns =>
    simp only [unmask, Entry.unmask, normalize_eq, Option.bind_eq_bind, Option.bind_some,
      Option.pure_def]
    split
    · rfl
    · split <;> rfl

theorem byteLength_unmask_le (code : Option Entry.Columns) (text : List Char) :
    Text.byteLength (Entry.unmask code text) ≤ Text.byteLength text := by
  unfold Entry.unmask
  split
  · exact Nat.le_refl _
  · split
    · exact Nat.le_refl _
    · split
      · exact byteLength_mask_le _ text
      · exact Nat.le_refl _

theorem ofLine_eq (code : Option Entry.Columns) {line : Line} (h : line.Fits) :
    ofLine code line = some (Entry.ofLine? code line) := by
  have hkept := keptOffset_add_le (Entry.unmask code line.text)
  have hunmask := byteLength_unmask_le code line.text
  unfold Line.Fits at h
  simp only [ofLine, Entry.ofLine?, unmask_eq, normalize_eq, Option.bind_eq_bind, Option.bind_some,
    Option.pure_def]
  split
  · rfl
  · rw [add?_eq (by omega), Option.bind_some, slice_eq (by omega) (by omega)]
    rfl

def join (code : Option Entry.Columns) : Option Entry → List Line → Option (List Entry)
  | pending, [] => some pending.toList
  | pending, line :: rest => do
    match ← ofLine code line with
    | none => join code pending rest
    | some next =>
      match Entry.continued? pending next with
      | some e =>
        if e.isTerminated then return e :: (← join code none rest) else join code (some e) rest
      | none =>
        let more ← (if next.isOpen then join code (some next) rest
          else (join code none rest).map (next :: ·))
        return pending.toList ++ more

theorem join_eq (code : Option Entry.Columns) (pending : Option Entry) {lines : List Line}
    (h : ∀ line ∈ lines, line.Fits) :
    join code pending lines = some (Entry.join code pending lines) := by
  induction lines generalizing pending with
  | nil => rfl
  | cons line rest ih =>
    have hrest := fun pending => ih pending fun l hl => h l (List.mem_cons_of_mem _ hl)
    rw [join, Entry.join, ofLine_eq code (h line List.mem_cons_self)]
    cases Entry.ofLine? code line with
    | none => exact hrest pending
    | some next =>
      simp only [Option.bind_eq_bind, Option.bind_some, hrest, Option.map_some, Option.pure_def]
      cases Entry.continued? pending next with
      | some e =>
        dsimp only
        split <;> rfl
      | none =>
        dsimp only
        split <;> rfl

def ofLines (code : Option Entry.Columns) (lines : List Line) : Option (List Entry) :=
  join code none lines

theorem ofLines_eq (code : Option Entry.Columns) {lines : List Line}
    (h : ∀ line ∈ lines, line.Fits) : ofLines code lines = some (Entry.ofLines code lines) :=
  join_eq code none h

end Checked

end DataDivision
