import DataDivision.Text.Numeral

/-!
Blanks, comments and quoted texts of the TOML notation.

A text stands between double quotes, with escapes, or between single quotes, without any; three
quotes on either side let it run over several lines.  Control characters are refused everywhere but
for tabs and line breaks, and a carriage return counts only before a line feed.
-/

namespace DataDivision.Toml

def isBlank (c : Char) : Bool := c == ' ' || c == '\t'

/-- The text after spaces and tabs. -/
def dropBlanks (cs : List Char) : List Char := cs.dropWhile isBlank

/-- A character that may stand in a comment or between quotes as it is. -/
def isPlain (c : Char) : Bool := c == '\t' || (32 ≤ c.toNat && c.toNat != 127)

/-- The text after blanks, line breaks and comments; `comment` says that it starts inside one. -/
def skipLines (comment : Bool) : List Char → Option (List Char)
  | [] => some []
  | c :: cs =>
    if c = '\n' then skipLines false cs
    else if c = '\r' then if cs.head? = some '\n' then skipLines comment cs else none
    else if comment then if isPlain c then skipLines true cs else none
    else if c = '#' then skipLines true cs
    else if isBlank c then skipLines false cs
    else some (c :: cs)

/-- Nothing but blanks and a comment stands before the end of the line. -/
def endsLine (cs : List Char) : Bool :=
  match dropBlanks cs with
  | [] => true
  | c :: _ => c == '\n' || c == '\r' || c == '#'

/-! ## Escapes -/

/-- The character of a code with the given number of digits. -/
def codePoint? (width : Nat) (cs : List Char) : Option (Char × List Char) :=
  if cs.length < width then none
  else (Text.hexChar? (cs.take width)).map (·, cs.drop width)

/-- The character that a single letter after a backslash stands for. -/
def shortEscape? : Char → Option Char
  | 'b' => some '\x08'
  | 't' => some '\t'
  | 'n' => some '\n'
  | 'f' => some '\x0c'
  | 'r' => some '\r'
  | 'e' => some '\x1b'
  | '"' => some '"'
  | '\\' => some '\\'
  | _ => none

/-- The number of digits that a letter after a backslash announces. -/
def codeWidth? : Char → Option Nat
  | 'x' => some 2
  | 'u' => some 4
  | 'U' => some 8
  | _ => none

def escape? : List Char → Option (Char × List Char)
  | [] => none
  | c :: rest =>
    match shortEscape? c with
    | some d => some (d, rest)
    | none => (codeWidth? c).bind (codePoint? · rest)

theorem length_codePoint? {width : Nat} {cs rest : List Char} {c : Char}
    (h : codePoint? width cs = some (c, rest)) : rest.length ≤ cs.length := by
  unfold codePoint? at h
  split at h
  · simp at h
  · obtain ⟨d, -, hd⟩ := Option.map_eq_some_iff.1 h
    simp only [Prod.mk.injEq] at hd
    simp [← hd.2]

theorem length_escape? {cs rest : List Char} {c : Char} (h : escape? cs = some (c, rest)) :
    rest.length < cs.length := by
  cases cs with
  | nil => simp [escape?] at h
  | cons d cs =>
    rw [escape?] at h
    split at h
    · simp only [Option.some.injEq, Prod.mk.injEq] at h
      simp [← h.2]
    · obtain ⟨width, -, hw⟩ := Option.bind_eq_some_iff.1 h
      exact Nat.lt_succ_of_le (length_codePoint? hw)

/-! ## One line -/

/-- The rest of a text between double quotes, after the first of them. -/
def basic? (cs : List Char) : Option (List Char × List Char) :=
  match cs with
  | [] => none
  | '"' :: rest => some ([], rest)
  | '\\' :: rest =>
    match h : escape? rest with
    | none => none
    | some (c, after) =>
      have := length_escape? h
      (basic? after).map fun (text, last) => (c :: text, last)
  | c :: rest =>
    if isPlain c then (basic? rest).map fun (text, last) => (c :: text, last) else none
termination_by cs.length

/-- The rest of a text between single quotes, after the first of them. -/
def literal? : List Char → Option (List Char × List Char)
  | [] => none
  | c :: rest =>
    if c = '\'' then some ([], rest)
    else if isPlain c then (literal? rest).map fun (text, last) => (c :: text, last)
    else none

/-! ## Several lines -/

/-- The text without a line break at its front. -/
def dropBreak : List Char → List Char
  | '\n' :: rest => rest
  | '\r' :: '\n' :: rest => rest
  | cs => cs

def dropSpaces : List Char → List Char
  | '\r' :: '\n' :: rest => dropSpaces rest
  | c :: rest => if isBlank c || c == '\n' then dropSpaces rest else c :: rest
  | [] => []

theorem length_dropSpaces (cs : List Char) : (dropSpaces cs).length ≤ cs.length := by
  fun_induction dropSpaces cs with
  | case1 rest ih => simp only [List.length_cons]; omega
  | case2 c rest _ _ ih => simp only [List.length_cons]; omega
  | case3 c rest => simp
  | case4 => simp

/-- A backslash at the end of a line takes away the break and all blanks and breaks after it. -/
def afterContinuation? (cs : List Char) : Option (List Char) :=
  match dropBlanks cs with
  | '\n' :: rest => some (dropSpaces rest)
  | '\r' :: '\n' :: rest => some (dropSpaces rest)
  | _ => none

theorem length_afterContinuation? {cs rest : List Char} (h : afterContinuation? cs = some rest) :
    rest.length < cs.length := by
  unfold afterContinuation? at h
  have hd : (dropBlanks cs).length ≤ cs.length := (List.dropWhile_suffix _).length_le
  split at h
  · rename_i r heq
    simp only [Option.some.injEq] at h
    have hr := length_dropSpaces r
    rw [heq, List.length_cons] at hd
    rw [← h]
    omega
  · rename_i r heq
    simp only [Option.some.injEq] at h
    have hr := length_dropSpaces r
    rw [heq, List.length_cons, List.length_cons] at hd
    rw [← h]
    omega
  · simp at h

/-- A run of quotes that closes a text over several lines: three, after at most two that belong to
the text. -/
def closing? (quote : Char) (cs : List Char) : Option (List Char × List Char) :=
  let count := (cs.takeWhile (· == quote)).length
  if count < 3 then none
  else
    let extra := min (count - 3) 2
    some (List.replicate extra quote, cs.drop (extra + 3))

/-- The rest of a text between three double quotes on either side. -/
def basicLines? (cs : List Char) : Option (List Char × List Char) :=
  match closing? '"' cs with
  | some done => some done
  | none =>
    match cs with
    | [] => none
    | c :: rest =>
      if c = '\\' then
        match h : afterContinuation? rest with
        | some after =>
          have := length_afterContinuation? h
          basicLines? after
        | none =>
          match h : escape? rest with
          | none => none
          | some (d, after) =>
            have := length_escape? h
            (basicLines? after).map fun (text, last) => (d :: text, last)
      else if c = '\n' ∨ isPlain c ∨ (c = '\r' ∧ rest.head? = some '\n') then
        (basicLines? rest).map fun (text, last) => (c :: text, last)
      else none
termination_by cs.length

/-- The rest of a text between three single quotes on either side. -/
def literalLines? (cs : List Char) : Option (List Char × List Char) :=
  match closing? '\'' cs with
  | some done => some done
  | none =>
    match cs with
    | [] => none
    | c :: rest =>
      if c = '\n' ∨ isPlain c ∨ (c = '\r' ∧ rest.head? = some '\n') then
        (literalLines? rest).map fun (text, last) => (c :: text, last)
      else none

def quoted? : List Char → Option (List Char × List Char)
  | '"' :: '"' :: '"' :: rest => basicLines? (dropBreak rest)
  | '\'' :: '\'' :: '\'' :: rest => literalLines? (dropBreak rest)
  | '"' :: rest => basic? rest
  | '\'' :: rest => literal? rest
  | _ => none

end DataDivision.Toml
