/-!
Lines and byte offsets.

Columns count characters; offsets count bytes of the UTF-8 form.
-/

namespace DataDivision.Text

/-- Number of bytes of a text in UTF-8. -/
def byteLength : List Char → Nat
  | [] => 0
  | c :: cs => c.utf8Size + byteLength cs

/-- The pieces between separators; one more than there are separators. -/
def pieces (separator : Char) : List Char → List (List Char)
  | [] => [[]]
  | c :: cs =>
    if c = separator then [] :: pieces separator cs
    else
      match pieces separator cs with
      | [] => [[c]]
      | piece :: rest => (c :: piece) :: rest

/-- The line without one carriage return at its end. -/
def dropReturn : List Char → List Char
  | [] => []
  | ['\r'] => []
  | c :: cs => c :: dropReturn cs

/-- A text cut into physical lines: at line feeds, each taking along one carriage return before it.
Nothing after the last line feed is no line. -/
def physicalLines (cs : List Char) : List (List Char) :=
  let lines := pieces '\n' cs
  lines.dropLast.map dropReturn ++ lines.getLast?.toList.filter (fun line => !line.isEmpty)

/-- The text without carriage returns and line feeds at its end. -/
def dropBreaks : List Char → List Char
  | [] => []
  | c :: cs =>
    match dropBreaks cs with
    | [] => if c = '\r' ∨ c = '\n' then [] else [c]
    | rest => c :: rest

/-- Number of line feeds among the first `n` bytes. -/
def feedsBefore : Nat → List Char → Nat
  | _, [] => 0
  | n, c :: cs =>
    if n < c.utf8Size then 0
    else (if c = '\n' then 1 else 0) + feedsBefore (n - c.utf8Size) cs

end DataDivision.Text
