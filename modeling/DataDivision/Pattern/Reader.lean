import DataDivision.Pattern.Footprint
import DataDivision.Text.Alphanumeric
import DataDivision.Text.Numeral

/-!
Reading patterns.

Literals, `.`, `^`, `$`, classes in brackets with nesting and set operations, the classes and
assertions written with a backslash, the repetitions `*`, `+`, `?`, `{n}`, `{n,}` and `{n,m}` with
their lazy forms, alternatives, groups, and flags.  Neither look-around nor references to groups are
part of the language, and the classes of Unicode properties (`\p` and `\P`) are not read.
-/

namespace DataDivision.Pattern

/-- Switches that hold for a part of a pattern. -/
structure Flags where
  ignoreCase : Bool := false
  multiLine : Bool := false
  dotAll : Bool := false
  swapGreed : Bool := false
  freeSpacing : Bool := false
  /-- A carriage return ends a line too. -/
  returns : Bool := false
  /-- The characters beyond ASCII count. -/
  everyScript : Bool := true
  deriving DecidableEq, Repr

namespace Flags

/-- Turns the flag of the given letter on or off. -/
def set? (flags : Flags) (letter : Char) (on : Bool) : Option Flags :=
  match letter with
  | 'i' => some { flags with ignoreCase := on }
  | 'm' => some { flags with multiLine := on }
  | 's' => some { flags with dotAll := on }
  | 'U' => some { flags with swapGreed := on }
  | 'x' => some { flags with freeSpacing := on }
  | 'R' => some { flags with returns := on }
  | 'u' => some { flags with everyScript := on }
  | _ => none

def alphabet (flags : Flags) : Alphabet := if flags.everyScript then .every else .ascii

/-- The set itself, or with all case variants. -/
def fold (flags : Flags) (s : CharSet) : CharSet :=
  if !flags.ignoreCase then s else if flags.everyScript then s.folded else s.asciiFolded

/-- The complement of a set.  Where only ASCII counts there is none, for it would not consist of
characters. -/
def compl? (flags : Flags) (s : CharSet) : Option CharSet :=
  if flags.everyScript then some s.compl else none

/-- What a point stands for. -/
def point? (flags : Flags) : Option CharSet :=
  if flags.dotAll then flags.compl? .none
  else if flags.returns then flags.compl? (.union (.single '\n') (.single '\r'))
  else flags.compl? (.single '\n')

end Flags

/-- What a backslash and the characters after it stand for. -/
inductive Escape
  | char (c : Char)
  /-- A character by its code of two digits, which is a byte where only ASCII counts. -/
  | code (c : Char)
  | set (s : CharSet)
  | assertion (a : Assertion)
  deriving DecidableEq, Repr

/-- Passes over blanks and comments, where the flags allow them. -/
def skipSpace (flags : Flags) : List Char → List Char
  | [] => []
  | c :: rest =>
    if flags.freeSpacing then
      if Text.isBlank c then skipSpace flags rest
      else if c = '#' then skipComment rest
      else c :: rest
    else c :: rest
where
  skipComment : List Char → List Char
    | [] => []
    | c :: rest => if c = '\n' then skipSpace flags rest else skipComment rest

/-- At most `n` characters of a kind and the rest, where blanks and comments may follow each. -/
def takeSpaced (flags : Flags) (accepts : Char → Bool) : Nat → List Char → List Char × List Char
  | 0, cs => ([], cs)
  | _, [] => ([], [])
  | n + 1, c :: cs =>
    if accepts c then
      let (taken, rest) := takeSpaced flags accepts n (skipSpace flags cs)
      (c :: taken, rest)
    else ([], c :: cs)

/-! ## Escapes -/

def isHexDigit (c : Char) : Bool := (Text.hexValue? c).isSome

/-- A code of `width` digits, or of any number of digits between braces.  The answer tells whether
there were braces. -/
def readHex? (flags : Flags) (width : Nat) (cs : List Char) : Option ((Char × Bool) × List Char) :=
  match skipSpace flags cs with
  | '\x7b' :: rest =>
    match takeSpaced flags isHexDigit rest.length (skipSpace flags rest) with
    | (digits, '\x7d' :: after) => (Text.hexChar? digits).map fun c => ((c, true), after)
    | _ => none
  | digits =>
    let (digits, after) := takeSpaced flags isHexDigit width digits
    if digits.length < width then none
    else (Text.hexChar? digits).map fun c => ((c, false), after)

/-- Every sign of ASCII but the angle brackets may be escaped to stand for itself. -/
def isEscapable (c : Char) : Bool := c.toNat < 128 && !c.isAlphanum && c != '<' && c != '>'

/-- A set of characters that a letter stands for, or its complement for a capital letter. -/
def letterSet? (flags : Flags) (c : Char) : Option CharSet :=
  let every := flags.everyScript
  match c with
  | 'd' => some (if every then .digit else .asciiDigit)
  | 'w' => some (if every then .word else .asciiWord)
  | 's' => some (if every then .blank else .asciiBlank)
  | 'D' => flags.compl? .digit
  | 'W' => flags.compl? .word
  | 'S' => flags.compl? .blank
  | _ => none

def letterChar? : Char → Option Char
  | 'a' => some '\x07'
  | 'f' => some '\x0c'
  | 't' => some '\t'
  | 'n' => some '\n'
  | 'r' => some '\r'
  | 'v' => some '\x0b'
  | _ => none

/-- The condition that a letter or a sign stands for. -/
def letterAssertion? (words : Alphabet) : Char → Option Assertion
  | 'A' => some .textStart
  | 'z' => some .textEnd
  | 'B' => some (.noWordBoundary words)
  | '<' => some (.wordStart words)
  | '>' => some (.wordEnd words)
  | _ => none

/-- The boundary that a name in braces after `\b` asks for. -/
def boundary? (words : Alphabet) (name : String) : Option Assertion :=
  match name with
  | "start" => some (.wordStart words)
  | "end" => some (.wordEnd words)
  | "start-half" => some (.noWordBefore words)
  | "end-half" => some (.noWordAfter words)
  | _ => none

def isBoundaryChar (c : Char) : Bool := c.isAlpha || c == '-'

/-- Reads what follows `\b`.  Braces hold the name of a boundary if a letter or a hyphen comes first
in them, and the bounds of a repetition if not. -/
def readBoundary? (flags : Flags) (cs : List Char) : Option (Escape × List Char) :=
  let plain := some (Escape.assertion (.wordBoundary flags.alphabet), cs)
  match cs with
  | '\x7b' :: rest =>
    match skipSpace flags rest with
    | [] => none
    | c :: inner =>
      if isBoundaryChar c then
        match takeSpaced flags isBoundaryChar rest.length (c :: inner) with
        | (name, '\x7d' :: after) =>
          (boundary? flags.alphabet (String.ofList name)).map (.assertion ·, after)
        | _ => none
      else plain
  | _ => plain

def readEscape? (flags : Flags) : List Char → Option (Escape × List Char)
  | [] => none
  | c :: rest =>
    if isEscapable c then some (.char c, rest)
    else
      match c with
      | 'x' =>
        (readHex? flags 2 rest).map fun ((d, braces), after) =>
          (if braces then .char d else .code d, after)
      | 'u' => (readHex? flags 4 rest).map fun ((d, _), after) => (.char d, after)
      | 'U' => (readHex? flags 8 rest).map fun ((d, _), after) => (.char d, after)
      | 'b' => readBoundary? flags rest
      | _ =>
        let read := ((letterSet? flags c).map Escape.set).or
          (((letterChar? c).map Escape.char).or
            ((letterAssertion? flags.alphabet c).map Escape.assertion))
        read.map (·, rest)

/-! ## Classes -/

/-- How a set is combined with the one read after it. -/
inductive SetOp
  | inter
  | diff
  | symmDiff
  deriving DecidableEq, Repr

def SetOp.apply (a b : CharSet) : SetOp → CharSet
  | inter => a.inter b
  | diff => a.diff b
  | symmDiff => a.symmDiff b

/-- The left side of an operation between sets, and how deep it nests. -/
structure LeftSide where
  set : CharSet
  op : SetOp
  depth : Nat
  deriving DecidableEq, Repr

/-- A class that is being read: whether it is negated, the operation that waits for its right side,
and of the members read since their set, their number and how deep they nest. -/
structure OpenClass where
  negated : Bool
  left : Option LeftSide := none
  members : CharSet := .none
  count : Nat := 0
  depth : Nat := 0
  deriving DecidableEq, Repr

namespace OpenClass

def add (k : OpenClass) (s : CharSet) (depth : Nat) : OpenClass :=
  { k with
    members := k.members.union s
    count := k.count + 1
    depth := max k.depth depth }

/-- The set read so far. -/
def value (flags : Flags) (k : OpenClass) : CharSet :=
  match k.left with
  | none => flags.fold k.members
  | some left => left.op.apply left.set (flags.fold k.members)

/-- How deep the class nests so far; several members count as one level, and so does an
operation. -/
def nesting (k : OpenClass) : Nat :=
  let members := if k.count ≤ 1 then k.depth else k.depth + 1
  match k.left with
  | none => members
  | some left => max left.depth members + 1

def operate (flags : Flags) (op : SetOp) (k : OpenClass) : OpenClass :=
  { negated := k.negated, left := some ⟨k.value flags, op, k.nesting⟩ }

def close? (flags : Flags) (k : OpenClass) : Option CharSet :=
  if k.negated then flags.compl? (k.value flags) else some (k.value flags)

end OpenClass

/-- Hyphens at the front of a class are members, and so is a closing bracket that comes first. -/
def openMembers (flags : Flags) : Nat → OpenClass → List Char → OpenClass × List Char
  | n + 1, k, '-' :: rest => openMembers flags n (k.add (.single '-') 0) (skipSpace flags rest)
  | _, k, ']' :: rest =>
    if k.count = 0 then (k.add (.single ']') 0, rest) else (k, ']' :: rest)
  | _, k, cs => (k, cs)

def openClass (flags : Flags) (cs : List Char) : OpenClass × List Char :=
  match skipSpace flags cs with
  | '^' :: rest => openMembers flags rest.length { negated := true } (skipSpace flags rest)
  | rest => openMembers flags rest.length { negated := false } rest

/-- One member of a class: a character, or a whole set. -/
def readMember? (flags : Flags) (cs : List Char) : Option ((Char ⊕ CharSet) × List Char) :=
  let char (c : Char) (rest : List Char) : Option ((Char ⊕ CharSet) × List Char) :=
    if flags.everyScript || c.toNat < 128 then some (.inl c, rest) else none
  match cs with
  | [] => none
  | '\\' :: rest =>
    match readEscape? flags rest with
    | some (.char c, after) => char c after
    | some (.code c, after) => char c after
    | some (.set s, after) => some (.inr s, after)
    | _ => none
  | c :: rest => char c rest

def readRange? (flags : Flags) (cs : List Char) : Option (CharSet × List Char) :=
  match readMember? flags cs with
  | none => none
  | some (first, rest) =>
    let alone := match first with
      | .inl c => CharSet.single c
      | .inr s => s
    match skipSpace flags rest with
    | [] => none
    | '-' :: after =>
      match skipSpace flags after with
      | [] => none
      | ']' :: _ | '-' :: _ => some (alone, '-' :: after)
      | more =>
        match first, readMember? flags more with
        | .inl low, some (.inl high, after) =>
          if low ≤ high then some (.range low high, after) else none
        | _, _ => none
    | after => some (alone, after)

/-- A named set between `[:` and `:]`.  Without its closing sign or with an unknown name it is none,
but a class inside a class; a complement may be refused. -/
def readNamed? (flags : Flags) : List Char → Option (Option CharSet × List Char)
  | '[' :: ':' :: rest =>
    let (negated, body) := match rest with
      | '^' :: more => (true, more)
      | _ => (false, rest)
    match body.dropWhile (· != ':') with
    | ':' :: ']' :: after =>
      (CharSet.named? (String.ofList (body.takeWhile (· != ':')))).map fun s =>
        (if negated then flags.compl? (flags.fold s) else some s, after)
    | _ => none
  | _ => none

/-- A class on the way: still open inside other open classes, or finished, with its nesting. -/
inductive ClassProgress
  | reading (k : OpenClass) (outer : List OpenClass) (rest : List Char)
  | finished (s : CharSet) (depth : Nat) (rest : List Char)
  deriving DecidableEq, Repr

def stepClass? (flags : Flags) (k : OpenClass) (outer : List OpenClass) (cs : List Char) :
    Option ClassProgress :=
  match skipSpace flags cs with
  | [] => none
  | ']' :: rest => do
    let s ← k.close? flags
    match outer with
    | [] => return .finished s (k.nesting + 1) rest
    | o :: os => return .reading (o.add s (k.nesting + 1)) os rest
  | '&' :: '&' :: rest => some (.reading (k.operate flags .inter) outer rest)
  | '-' :: '-' :: rest => some (.reading (k.operate flags .diff) outer rest)
  | '~' :: '~' :: rest => some (.reading (k.operate flags .symmDiff) outer rest)
  | '[' :: rest =>
    match readNamed? flags ('[' :: rest) with
    | some (some s, after) => some (.reading (k.add s 0) outer after)
    | some (none, _) => none
    | none =>
      let (inner, after) := openClass flags rest
      some (.reading inner (k :: outer) after)
  | cs' => (readRange? flags cs').map fun (s, after) => .reading (k.add s 0) outer after

/-- Reads a class whose brackets are open, innermost first; each step must use up some text. -/
def readClass? (flags : Flags) (k : OpenClass) (outer : List OpenClass) (cs : List Char) :
    Option ((CharSet × Nat) × List Char) :=
  match stepClass? flags k outer cs with
  | none => none
  | some (.finished s depth rest) => some ((s, depth), rest)
  | some (.reading k' outer' rest) =>
    if rest.length < cs.length then readClass? flags k' outer' rest else none
termination_by cs.length

/-! ## Repetitions -/

/-- A decimal number with blanks around it. -/
def readCount? (flags : Flags) (cs : List Char) : Option (Nat × List Char) :=
  let (digits, rest) := takeSpaced flags Char.isDigit cs.length (Text.dropBlanks cs)
  (Text.readNat? Text.maxWord32 digits).map (·, Text.dropBlanks rest)

/-- The bounds of a repetition, after its opening brace. -/
def readBounds? (flags : Flags) (cs : List Char) : Option ((Nat × Option Nat) × List Char) :=
  match readCount? flags (skipSpace flags cs) with
  | some (least, '\x7d' :: rest) => some ((least, some least), rest)
  | some (least, ',' :: more) =>
    match skipSpace flags more with
    | '\x7d' :: rest => some ((least, none), rest)
    | more =>
      match readCount? flags more with
      | some (most, '\x7d' :: rest) =>
        if least ≤ most then some ((least, some most), rest) else none
      | _ => none
  | _ => none

/-! ## Groups -/

/-- What stands at the front of a group. -/
inductive GroupHead
  /-- Flags for the rest of the enclosing group. -/
  | switch (flags : Flags)
  | plain (flags : Flags)
  | capturing (name : Option String)
  deriving DecidableEq, Repr

/-- Reads flags up to a colon or a closing parenthesis.  No flag stands twice, and a minus sign
stands once, before some flag. -/
def readFlags? (flags : Flags) (seen : List Char) (on : Bool) :
    List Char → Option (GroupHead × List Char)
  | [] => none
  | ')' :: rest => if seen.isEmpty || seen.head? == some '-' then none else some (.switch flags, rest)
  | ':' :: rest => if seen.head? == some '-' then none else some (.plain flags, rest)
  | '-' :: rest => if on then readFlags? flags ('-' :: seen) false rest else none
  | c :: rest =>
    if seen.contains c then none
    else
      match flags.set? c on with
      | some next => readFlags? next (c :: seen) on rest
      | none => none

/-- A name starts with a letter or an underscore. -/
def isGroupName (name : List Char) : Bool :=
  match name with
  | [] => false
  | first :: rest =>
    (first == '_' || Text.isAlphabetic first) &&
      rest.all fun c => Text.isAlphanumeric c || ['_', '.', '[', ']'].contains c

/-- Reads the name of a group, up to its closing angle bracket. -/
def readName? (cs : List Char) : Option (GroupHead × List Char) :=
  let name := cs.takeWhile (· != '>')
  match cs.dropWhile (· != '>') with
  | [] => none
  | _ :: rest => if isGroupName name then some (.capturing (some (String.ofList name)), rest) else none

def readGroupHead? (flags : Flags) (cs : List Char) : Option (GroupHead × List Char) :=
  match skipSpace flags cs with
  | '?' :: '=' :: _ | '?' :: '!' :: _ | '?' :: '<' :: '=' :: _ | '?' :: '<' :: '!' :: _ => none
  | '?' :: 'P' :: '<' :: rest => readName? rest
  | '?' :: '<' :: rest => readName? rest
  | '?' :: rest => readFlags? flags [] true rest
  | rest => some (.capturing none, rest)

/-! ## Patterns -/

/-- A part of a pattern, and how deep it nests.  Flags are a part without an expression. -/
structure Piece where
  expr : Option Expr
  depth : Nat := 0
  deriving DecidableEq, Repr

/-- How deep some parts nest together: more than one count as one more level. -/
def nestingOf : List Nat → Nat
  | [] => 0
  | [depth] => depth
  | depths => depths.foldl max 0 + 1

/-- A group that is being read: its number if it captures, the flags that hold outside it, the
alternatives before the current one, and the parts of the current one, latest first. -/
structure OpenGroup where
  number : Option Nat := none
  outside : Flags := {}
  alternatives : List (Expr × Nat) := []
  parts : List Piece := []
  deriving DecidableEq, Repr

namespace OpenGroup

/-- The current alternative and its nesting. -/
def current (g : OpenGroup) : Expr × Nat :=
  (.concat (g.parts.reverse.filterMap (·.expr)), nestingOf (g.parts.map (·.depth)))

/-- The alternative read last ends here. -/
def divide (g : OpenGroup) : OpenGroup :=
  { g with alternatives := g.current :: g.alternatives, parts := [] }

def body (g : OpenGroup) : Expr × Nat :=
  let alternatives := (g.current :: g.alternatives).reverse
  (.alternation (alternatives.map (·.1)), nestingOf (alternatives.map (·.2)))

/-- The group as a part of the one around it. -/
def close (g : OpenGroup) : Piece :=
  let (expr, depth) := g.body
  match g.number with
  | some n => ⟨some (.group n expr), depth + 1⟩
  | none => ⟨some expr, depth + 1⟩

def push (g : OpenGroup) (part : Piece) : OpenGroup := { g with parts := part :: g.parts }

/-- Repeats the part read last.  Flags are not repeated. -/
def repeat? (g : OpenGroup) (bounds : Nat × Option Nat) (greedy : Bool) : Option OpenGroup :=
  match g.parts with
  | ⟨some e, depth⟩ :: rest =>
    some { g with parts := ⟨some (.repetition bounds.1 bounds.2 greedy e), depth + 1⟩ :: rest }
  | _ => none

end OpenGroup

/-- The state of reading a pattern. -/
structure Progress where
  flags : Flags := {}
  group : OpenGroup := {}
  outer : List OpenGroup := []
  groups : Nat := 0
  names : List String := []
  deriving DecidableEq, Repr

namespace Progress

def push (p : Progress) (e : Expr) : Progress := { p with group := p.group.push ⟨some e, 0⟩ }

def pushSet (p : Progress) (s : CharSet) : Progress := p.push (.ofSet s)

/-- A character stands for itself, or for all its case variants. -/
def pushChar (p : Progress) (c : Char) : Progress := p.pushSet (p.flags.fold (.single c))

/-- Applies a repetition, which a question mark after it makes lazy. -/
def repeat? (p : Progress) (bounds : Nat × Option Nat) (cs : List Char) :
    Option (Progress × List Char) :=
  let (lazy, rest) := match skipSpace p.flags cs with
    | '?' :: rest => (true, rest)
    | _ => (false, cs)
  (p.group.repeat? bounds (lazy == p.flags.swapGreed)).map fun g => ({ p with group := g }, rest)

def enter (p : Progress) (number : Option Nat) (flags : Flags) : Progress :=
  { p with
    flags := flags
    group := { number := number, outside := p.flags }
    outer := p.group :: p.outer }

/-- Opens a group, or changes the flags. -/
def enterGroup? (p : Progress) (cs : List Char) : Option (Progress × List Char) :=
  match readGroupHead? p.flags cs with
  | none => none
  | some (.switch flags, rest) =>
    some ({ p with flags := flags, group := p.group.push ⟨none, 0⟩ }, rest)
  | some (.plain flags, rest) => some (p.enter none flags, rest)
  | some (.capturing none, rest) =>
    some ({ p.enter (some (p.groups + 1)) p.flags with groups := p.groups + 1 }, rest)
  | some (.capturing (some name), rest) =>
    if p.names.contains name then none
    else
      some ({ p.enter (some (p.groups + 1)) p.flags with
        groups := p.groups + 1
        names := name :: p.names }, rest)

def pushEscape? (p : Progress) : Escape → Option Progress
  | .char c => some (p.pushChar c)
  | .code c => if p.flags.everyScript || c.toNat < 128 then some (p.pushChar c) else none
  | .set s => some (p.pushSet s)
  | .assertion a => some (p.push (.assertion a))

/-- Reads the next part of a pattern, which is not empty. -/
def step? (p : Progress) (c : Char) (rest : List Char) : Option (Progress × List Char) :=
  match c with
  | '(' => p.enterGroup? rest
  | ')' =>
    match p.outer with
    | [] => none
    | g :: gs =>
      some ({ p with flags := p.group.outside, group := g.push p.group.close, outer := gs }, rest)
  | '|' => some ({ p with group := p.group.divide }, rest)
  | '[' =>
    let (k, after) := openClass p.flags rest
    (readClass? p.flags k [] after).map fun ((s, depth), after) =>
      ({ p with group := p.group.push ⟨some (.ofSet s), depth⟩ }, after)
  | '*' => p.repeat? (0, none) rest
  | '+' => p.repeat? (1, none) rest
  | '?' => p.repeat? (0, some 1) rest
  | '\x7b' =>
    match readBounds? p.flags rest with
    | some (bounds, after) => p.repeat? bounds after
    | none => none
  | '\\' => do
    let (escape, after) ← readEscape? p.flags rest
    return (← p.pushEscape? escape, after)
  | '.' => p.flags.point?.map fun s => (p.pushSet s, rest)
  | '^' =>
    some (p.push (.assertion
      (if p.flags.multiLine then .lineStart p.flags.returns else .textStart)), rest)
  | '$' =>
    some (p.push (.assertion
      (if p.flags.multiLine then .lineEnd p.flags.returns else .textEnd)), rest)
  | _ => some (p.pushChar c, rest)

/-- Reads the rest of a pattern; each step must use up some text.  The answer is the expression and
how deep it nests. -/
def read? (p : Progress) (cs : List Char) : Option (Expr × Nat) :=
  match skipSpace p.flags cs with
  | [] => if p.outer.isEmpty then some p.group.body else none
  | c :: rest =>
    match p.step? c rest with
    | none => none
    | some (next, after) => if after.length < cs.length then next.read? after else none
termination_by cs.length

end Progress

/-- How deep the parts of a pattern may nest. -/
def maxNesting : Nat := 250

/-- Reads a pattern.  One that nests too deep or takes too much room is none. -/
def Expr.ofText? (text : String) : Option Expr := do
  let (expr, depth) ← ({} : Progress).read? text.toList
  if depth ≤ maxNesting ∧ expr.fits then return expr else none

end DataDivision.Pattern
