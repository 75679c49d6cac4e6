import DataDivision.Pattern.ByteSequence
import DataDivision.Pattern.Expr

/-!
How much room a pattern takes.

A pattern is refused when an automaton that reads UTF-8 would take more than `Footprint.maxBytes`,
be it the one that reads forward or the one that reads backward.  A survey counts the states of such
an automaton and the links between them in the order in which they come about, and ends as soon as
there are too many.

A set outside ASCII is the only part whose room depends on what was counted before it: states that
lead on in the same way are shared as far as a small table remembers them, and the place of a state
in the table depends on the numbers of the states that it leads to.
-/

namespace DataDivision.Pattern

/-- The direction in which an automaton reads. -/
inductive Direction
  | forward
  | backward
  deriving DecidableEq, Repr

/-- The number of states of an automaton, and the bytes that its links take. -/
structure Footprint where
  states : Nat := 0
  links : Nat := 0
  deriving DecidableEq, Repr

namespace Footprint

def stateSize : Nat := 32

/-- The bytes of a link for a range of bytes. -/
def rangeSize : Nat := 8

/-- The bytes of a link without a condition. -/
def choiceSize : Nat := 4

/-- The most bytes that an automaton may take. -/
def maxBytes : Nat := 10485760

def bytes (f : Footprint) : Nat := stateSize * f.states + f.links

def fits (f : Footprint) : Bool := f.bytes ≤ maxBytes

end Footprint

/-- A count that ends when there is no room left. -/
abbrev Survey := StateT Footprint Option

namespace Survey

/-- One more state, with bytes for its links; the answer is its number. -/
def state (links : Nat) : Survey Nat := fun f =>
  let next : Footprint := ⟨f.states + 1, f.links + links⟩
  if next.fits then some (f.states, next) else none

/-- One more way to go on from a state that offers several. -/
def choice : Survey Unit := fun f =>
  let next : Footprint := ⟨f.states, f.links + Footprint.choiceSize⟩
  if next.fits then some ((), next) else none

/-- What follows a part is one more way to go on from its last state, if that state offers
several. -/
def follow (isOpen : Bool) : Survey Unit := if isOpen then choice else pure ()

/-! ## Rows -/

def chain : Nat → Survey Unit
  | 0 => pure ()
  | n + 1 => do
    let _ ← state 0
    chain n

/-- `n` further copies of a part; a part answers whether its last state offers several ways. -/
def row (part : Survey Bool) : Nat → Bool → Survey Bool
  | 0, isOpen => pure isOpen
  | n + 1, isOpen => do
    let next ← part
    follow isOpen
    row part n next

/-- `n` copies of a part. -/
def exactly (part : Survey Bool) : Nat → Survey Bool
  | 0 => do
    let _ ← state 0
    return false
  | n + 1 => do row part n (← part)

/-- `n` further copies of a part, each of which may be left out with all that follow it. -/
def upTo (part : Survey Bool) : Nat → Bool → Survey Bool
  | 0, isOpen => pure isOpen
  | n + 1, isOpen => do
    let _ ← state 0
    let next ← part
    follow isOpen
    choice
    choice
    upTo part n next

/-- At least `n` copies of a part, which `consumes` characters or may be empty. -/
def atLeast (consumes : Bool) (part : Survey Bool) : Nat → Survey Bool
  | 0 => do
    if consumes then
      let _ ← state 0
      let inner ← part
      choice
      follow inner
      return true
    else
      let inner ← part
      chain 3
      follow inner
      choice
      choice
      choice
      choice
      return false
  | 1 => do
    let inner ← part
    chain 1
    follow inner
    choice
    return true
  | n + 2 => do
    let before ← exactly part (n + 1)
    let last ← part
    chain 1
    follow before
    follow last
    choice
    return true

/-- From `least` to `most` copies of a part. -/
def between (part : Survey Bool) (least most : Nat) : Survey Bool := do
  if least = 0 ∧ most = 1 then
    let _ ← state 0
    let inner ← part
    chain 1
    choice
    choice
    follow inner
    return false
  else
    let before ← exactly part least
    if least = most then return before
    else
      chain 1
      follow (← upTo part (most - least) before)
      return false

end Survey

/-! ## Sets -/

/-- A table with a place for each hash: of two keys with one hash it remembers the later. -/
structure Memory where
  places : Array (Option (List Nat × Nat))

namespace Memory

def ofSize (size : Nat) : Memory := ⟨Array.replicate size none⟩

/-- The hash FNV-1a of some words. -/
def hash (words : List Nat) : UInt64 :=
  words.foldl (fun h w => (h ^^^ w.toUInt64) * 1099511628211) 14695981039346656037

def place (m : Memory) (key : List Nat) : Nat := (hash key).toNat % m.places.size

/-- The state that is remembered for a key. -/
def find? (m : Memory) (key : List Nat) : Option Nat :=
  match m.places[m.place key]? with
  | some (some (k, state)) => if k = key then some state else none
  | _ => none

def store (m : Memory) (key : List Nat) (state : Nat) : Memory :=
  ⟨m.places.setIfInBounds (m.place key) (some (key, state))⟩

end Memory

namespace Survey

/-- The state of a key, which is a new one with the given bytes for links if none is remembered. -/
def shared (m : Memory) (key : List Nat) (links : Nat) : Survey (Memory × Nat) :=
  match m.find? key with
  | some n => pure (m, n)
  | none => do
    let n ← state links
    return (m.store key n, n)

/-- The states of sequences that are read forward: those that lead to the same states by the same
ranges are shared.  `depth` bounds the length of a sequence. -/
def tree (target : Nat) : Nat → Memory → List (List ByteRange) → Survey (Memory × Nat)
  | 0, m, _ => pure (m, target)
  | depth + 1, m, sequences => do
    if sequences.all List.isEmpty then return (m, target)
    else
      let ranges := byFirst sequences
      let (m, key) ← ranges.foldlM (fun (m, key) (r, tails) => do
        let (m, n) ← tree target depth m tails
        return (m, key ++ [r.low, r.high, n])) (m, [])
      shared m key (Footprint.rangeSize * ranges.length)

/-- The states of one sequence that is read backward, from the state `last` on: those that come from
the same state by the same range are shared. -/
def suffix (m : Memory) (last : Nat) : List ByteRange → Survey Memory
  | [] => pure m
  | r :: rest => do
    let (m, n) ← shared m [last, r.low, r.high] 0
    suffix m n rest

/-- The longest sequence of bytes of a character. -/
def maxLength : Nat := 4

def set (direction : Direction) (s : CharSet) : Survey Unit := do
  if s.isAscii then
    chain 1
    let _ ← state (Footprint.rangeSize * s.intervals.length)
  else
    match direction with
    | .forward =>
      let target ← state 0
      let _ ← tree target maxLength (.ofSize 10000) s.sequences
    | .backward =>
      chain 1
      let last ← state 0
      let _ ← s.sequences.foldlM (fun m sequence => do
        let m ← suffix m last sequence
        choice
        return m) (.ofSize 1000)

end Survey

/-! ## Words -/

/-- Words cut where an empty one stands.  Of empty words in front only one counts. -/
def cutWords : List (List Nat) → List (List (List Nat))
  | [] => [[]]
  | [] :: rest =>
    match rest with
    | [] :: _ => cutWords rest
    | _ => [] :: pieces rest
  | words => pieces words
where
  pieces : List (List Nat) → List (List (List Nat))
    | [] => [[]]
    | [] :: rest => [] :: pieces rest
    | word :: rest =>
      match pieces rest with
      | [] => [[word]]
      | piece :: more => (word :: piece) :: more

/-- Adds what follows the first byte of a word to the words with that byte. -/
def addWord (byte : Nat) (tail : List Nat) :
    List (Nat × List (List Nat)) → List (Nat × List (List Nat))
  | [] => [(byte, [tail])]
  | (b, tails) :: rest =>
    if b = byte then (b, tails ++ [tail]) :: rest else (b, tails) :: addWord byte tail rest

/-- Words by their first byte. -/
def byByte (words : List (List Nat)) : List (Nat × List (List Nat)) :=
  words.foldl (fun groups word =>
    match word with
    | [] => groups
    | byte :: tail => addWord byte tail groups) []

/-- The states of a choice between words, which share what they start with.  `length` bounds the
length of a word. -/
def Survey.words : Nat → List (List Nat) → Survey Unit
  | 0, _ => pure ()
  | length + 1, words => do
    let pieces := (cutWords words).map byByte
    pieces.forM fun groups => do
      groups.forM fun (_, tails) => do
        if !tails.all List.isEmpty then Survey.words length tails
      if groups.length = 1 then chain 1
      else if !groups.isEmpty then
        let _ ← state (Footprint.rangeSize * groups.length)
    let ways := (pieces.filter (!·.isEmpty)).length + (pieces.length - 1)
    let _ ← state (Footprint.choiceSize * ways)

/-! ## Expressions -/

def bytesOfChars (cs : List Char) : List Nat := cs.flatMap fun c => bytesOf c.toNat

/-- Where an expression stands among alternatives. -/
inductive Standing
  | alone
  /-- Second, after a first one whose last state offers several ways or not. -/
  | second (firstOpen : Bool)
  | later
  deriving DecidableEq, Repr

/-- Joins an alternative to the ones before it. -/
def Standing.join (isOpen : Bool) : Standing → Survey Bool
  | alone => pure isOpen
  | second firstOpen => do
    Survey.chain 2
    Survey.choice
    Survey.follow firstOpen
    Survey.choice
    Survey.follow isOpen
    return false
  | later => do
    Survey.choice
    Survey.follow isOpen
    return false

namespace Expr

def literal? : Expr → Option (List Char)
  | literal cs => some cs
  | _ => none

/-- Counts an expression; the answer is whether its last state offers several ways to go on. -/
def layOut (d : Direction) : Expr → Standing → Survey Bool
  | empty, standing => do
    Survey.chain 1
    standing.join false
  | literal cs, standing => do
    Survey.chain (bytesOfChars cs).length
    standing.join false
  | one s, standing => do
    Survey.set d s
    standing.join false
  | assertion _, standing => do
    Survey.chain 1
    standing.join false
  | seq a b, standing => do
    match d with
    | .forward =>
      let first ← a.layOut d .alone
      let second ← b.layOut d .alone
      Survey.follow first
      standing.join second
    | .backward =>
      let second ← b.layOut d .alone
      let first ← a.layOut d .alone
      Survey.follow second
      standing.join first
  | alt a b, standing => do
    match standing, ((alt a b).branches.mapM literal?) with
    | .alone, some literals =>
      let words := literals.map fun cs =>
        match d with
        | .forward => bytesOfChars cs
        | .backward => (bytesOfChars cs).reverse
      Survey.chain 1
      Survey.words (words.foldl (fun n w => max n w.length) 0) words
      return false
    | .alone, none =>
      let first ← a.layOut d .alone
      b.layOut d (.second first)
    | _, _ =>
      let first ← a.layOut d .alone
      let _ ← standing.join first
      b.layOut d .later
  | repeated least none _ a, standing => do
    standing.join (← Survey.atLeast a.consumes (a.layOut d .alone) least)
  | repeated least (some most) _ a, standing => do
    standing.join (← Survey.between (a.layOut d .alone) least most)
  | group _ a, standing => do
    match d with
    | .forward =>
      Survey.chain 1
      let inner ← a.layOut d .alone
      Survey.chain 1
      Survey.follow inner
      standing.join false
    | .backward =>
      let inner ← a.layOut d .alone
      standing.join inner

/-! ## Automata -/

/-- Every match starts at the start of the text. -/
def startsText : Expr → Bool
  | assertion .textStart => true
  | seq a b => a.startsText || (a.isHollow && b.startsText)
  | alt a b => a.startsText && b.startsText
  | repeated least _ _ a => 0 < least && a.startsText
  | group _ a => a.startsText
  | _ => false

/-- Every match ends at the end of the text. -/
def endsText : Expr → Bool
  | assertion .textEnd => true
  | seq a b => b.endsText || (b.isHollow && a.endsText)
  | alt a b => a.endsText && b.endsText
  | repeated least _ _ a => 0 < least && a.endsText
  | group _ a => a.endsText
  | _ => false

/-- Counts a whole automaton: what passes over the text before a match, unless a match can only be
at the end where reading begins, then the match as a group, and the end. -/
def survey (d : Direction) (e : Expr) : Survey Unit := do
  let anchored := match d with
    | .forward => e.startsText
    | .backward => e.endsText
  Survey.chain 1
  if !anchored then
    Survey.chain 1
    let _ ← Survey.state Footprint.rangeSize
    Survey.choice
    Survey.choice
  let last ← (group 0 e).layOut d .alone
  Survey.chain 1
  Survey.follow last

/-- The automata of a pattern have room. -/
def fits (e : Expr) : Bool :=
  ((e.survey .forward).run {}).isSome && ((e.survey .backward).run {}).isSome

end Expr

end DataDivision.Pattern
