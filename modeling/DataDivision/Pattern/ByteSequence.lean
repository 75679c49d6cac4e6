import DataDivision.Pattern.CharSet

/-!
The characters of a set as sequences of bytes.

In UTF-8 a set is a list of sequences of byte ranges: a character is in the set when its bytes lie
in the ranges of some sequence, one in each.  The sequences stand in ascending order, and no
character belongs to two of them.
-/

namespace DataDivision.Pattern

/-- The bytes from `low` to `high`. -/
structure ByteRange where
  low : Nat
  high : Nat
  deriving DecidableEq, Repr

def bytesOf (n : Nat) : List Nat :=
  if n < 0x80 then [n]
  else if n < 0x800 then [0xC0 + n / 64, 0x80 + n % 64]
  else if n < 0x10000 then [0xE0 + n / 4096, 0x80 + n / 64 % 64, 0x80 + n % 64]
  else [0xF0 + n / 262144, 0x80 + n / 4096 % 64, 0x80 + n / 64 % 64, 0x80 + n % 64]

/-- Cuts an interval so that of each piece every byte is either fixed, or free below a fixed front.
The units are the numbers of code points that share all but their last byte, all but the last two,
and so on. -/
def cutAt : List Nat → Nat → Nat → List (Nat × Nat)
  | [], low, high => [(low, high)]
  | unit :: units, low, high =>
    if low / unit = high / unit then [(low, high)]
    else
      let start := (low + unit - 1) / unit * unit
      let stop := (high + 1) / unit * unit
      (if low < start then [(low, start - 1)] else []) ++
        (if start < stop then cutAt units start (stop - 1) else []) ++
        (if stop ≤ high then [(stop, high)] else [])

/-- Code points of one length in bytes: the first, the last, and the units at which to cut. -/
structure Plane where
  low : Nat
  high : Nat
  units : List Nat
  deriving DecidableEq, Repr

def planes : List Plane :=
  [⟨0, 0x7F, []⟩, ⟨0x80, 0x7FF, [64]⟩, ⟨0x800, 0xD7FF, [64, 4096]⟩, ⟨0xE000, 0xFFFF, [64, 4096]⟩,
    ⟨0x10000, 0x10FFFF, [64, 4096, 262144]⟩]

def Plane.pieces (p : Plane) (low high : Nat) : List (Nat × Nat) :=
  if max low p.low ≤ min high p.high then cutAt p.units (max low p.low) (min high p.high) else []

def CharSet.sequences (s : CharSet) : List (List ByteRange) :=
  s.intervals.flatMap fun (low, high) =>
    planes.flatMap fun plane =>
      (plane.pieces low high).map fun (first, last) =>
        (bytesOf first).zipWith ByteRange.mk (bytesOf last)

/-- Sequences by their first range; those with the same one stand together. -/
def byFirst : List (List ByteRange) → List (ByteRange × List (List ByteRange))
  | [] => []
  | [] :: rest => byFirst rest
  | (r :: tail) :: rest =>
    match byFirst rest with
    | [] => [(r, [tail])]
    | (q, tails) :: more =>
      if r = q then (q, tail :: tails) :: more else (r, [tail]) :: (q, tails) :: more

end DataDivision.Pattern
