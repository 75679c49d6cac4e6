import DataDivision.Text.Blank
import DataDivision.Text.Folding
import DataDivision.Text.WordCharacter

/-!
Sets of characters, as patterns describe them.

A set is kept as its boundaries (`Text.inside`), so that two descriptions of one set are equal.
-/

namespace DataDivision.Pattern

/-- A set of characters, by the ascending boundaries of its intervals. -/
structure CharSet where
  bounds : List Nat := []
  deriving DecidableEq, Repr

namespace CharSet

def contains (s : CharSet) (c : Char) : Bool := Text.inside s.bounds c.toNat

/-! ## Sets -/

def none : CharSet := {}

def all : CharSet := ⟨[0, 0x110000]⟩

def range (low high : Char) : CharSet := ⟨[low.toNat, high.toNat + 1]⟩

def single (c : Char) : CharSet := range c c

def digit : CharSet := ⟨Text.digitTable⟩

def word : CharSet := ⟨Text.wordTable⟩

def blank : CharSet := ⟨Text.blankTable⟩

/-! ## Operations -/

def combine (op : Bool → Bool → Bool) (a b : CharSet) : CharSet :=
  ⟨Text.combine op false false a.bounds b.bounds⟩

def union : CharSet → CharSet → CharSet := combine or

def inter : CharSet → CharSet → CharSet := combine and

def diff : CharSet → CharSet → CharSet := combine fun inA inB => inA && !inB

def symmDiff : CharSet → CharSet → CharSet := combine xor

def compl (s : CharSet) : CharSet := all.diff s

def unions (sets : List CharSet) : CharSet := sets.foldl union none

/-- Every case variant of the members. -/
def folded (s : CharSet) : CharSet := ⟨Text.withVariants s.bounds⟩

/-! ## Views -/

def isAscii (s : CharSet) : Bool := s.bounds.all (· ≤ 128)

def only? (s : CharSet) : Option Char :=
  match s.bounds with
  | [low, high] => if high = low + 1 then some (Char.ofNat low) else Option.none
  | _ => Option.none

/-- The first and the last code point of each interval. -/
def intervals (s : CharSet) : List (Nat × Nat) := pairs s.bounds
where
  pairs : List Nat → List (Nat × Nat)
    | low :: high :: rest => (low, high - 1) :: pairs rest
    | _ => []

/-! ## ASCII -/

def asciiDigit : CharSet := range '0' '9'

def asciiLetter : CharSet := union (range 'A' 'Z') (range 'a' 'z')

def asciiWord : CharSet := unions [asciiDigit, asciiLetter, single '_']

def asciiBlank : CharSet := union (range '\t' '\r') (single ' ')

/-- The members with the ASCII letters that differ from them in case alone. -/
def asciiFolded (s : CharSet) : CharSet :=
  ((List.range 26).filter fun i =>
      Text.inside s.bounds (65 + i) || Text.inside s.bounds (97 + i)).foldl
    (fun acc i => ⟨Text.insert (Text.insert acc.bounds (65 + i)) (97 + i)⟩) s

/-- The ASCII sets that have names between `[:` and `:]`. -/
def named? (name : String) : Option CharSet :=
  match name with
  | "alnum" => some (union asciiDigit asciiLetter)
  | "alpha" => some asciiLetter
  | "ascii" => some (range '\x00' '\x7f')
  | "blank" => some (union (single '\t') (single ' '))
  | "cntrl" => some (union (range '\x00' '\x1f') (single '\x7f'))
  | "digit" => some asciiDigit
  | "graph" => some (range '!' '~')
  | "lower" => some (range 'a' 'z')
  | "print" => some (range ' ' '~')
  | "punct" => some (unions [range '!' '/', range ':' '@', range '[' '`', range '\x7b' '~'])
  | "space" => some asciiBlank
  | "upper" => some (range 'A' 'Z')
  | "word" => some asciiWord
  | "xdigit" => some (unions [asciiDigit, range 'A' 'F', range 'a' 'f'])
  | _ => Option.none

/-! ## Membership -/

theorem contains_combine {op : Bool → Bool → Bool} {a b : CharSet} (c : Char)
    (hop : op false false = false) (ha : a.bounds.Pairwise (· < ·))
    (hb : b.bounds.Pairwise (· < ·)) :
    (combine op a b).contains c = op (a.contains c) (b.contains c) := by
  have := Text.inside_combine op false false c.toNat ha hb
  simpa [hop, contains, combine] using this

end CharSet

end DataDivision.Pattern
