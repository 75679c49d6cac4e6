import DataDivision.Span
import DataDivision.Text.Blank
import DataDivision.Text.Line

/-!
Source text and its lines.

Lines are joined with line feeds into one text, and each line knows the bytes it takes there.
-/

namespace DataDivision

/-- One physical line: its number from 1, its characters, and its bytes in the joined text. -/
structure Line where
  number : Nat
  text : List Char
  span : Span
  deriving DecidableEq, Repr

/-- A blank line, or a comment: a star in column 7, or a star or two slashes before anything
else. -/
def Line.isComment (line : Line) : Bool :=
  let body := Text.trim line.text
  body.isEmpty || line.text[6]? == some '*' || body.head? == some '*' ||
    body.take 2 == ['/', '/']

/-- A joined text and its lines. -/
structure Source where
  text : List Char
  lines : List Line
  deriving DecidableEq, Repr

namespace Source

/-- Numbers the lines from `number` and lays them out from the byte `offset`, with one line feed
between neighbours. -/
def place (number offset : Nat) : List (List Char) → List Line
  | [] => []
  | text :: rest =>
    let stop := offset + Text.byteLength text
    ⟨number, text, Span.of offset stop⟩ :: place (number + 1) (stop + 1) rest

/-- The source of the given lines, each without line breaks at its end. -/
def ofLines (lines : List (List Char)) : Source :=
  let kept := lines.map Text.dropBreaks
  ⟨List.intercalate ['\n'] kept, place 1 0 kept⟩

/-- The source of a text that still holds its line breaks. -/
def ofText (text : List Char) : Source := ofLines (Text.physicalLines text)

/-- The lines that are neither blank nor comments. -/
def content (s : Source) : List Line := s.lines.filter fun line => !line.isComment

theorem length_place (number offset : Nat) (texts : List (List Char)) :
    (place number offset texts).length = texts.length := by
  induction texts generalizing number offset with
  | nil => rfl
  | cons t ts ih => simp [place, ih]

end Source

end DataDivision
