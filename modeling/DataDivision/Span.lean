/-!
Byte spans of a text.

A span never ends before it starts; every operation keeps that.
-/

namespace DataDivision

/-- The bytes from `start` up to and without `stop`. -/
structure Span where
  start : Nat
  stop : Nat
  start_le_stop : start ≤ stop := by omega
  deriving DecidableEq, Repr

namespace Span

instance : Inhabited Span := ⟨⟨0, 0, Nat.le_refl 0⟩⟩

/-- The span from `start` to `stop`, empty at `start` if `stop` lies before it. -/
def of (start stop : Nat) : Span := ⟨start, max stop start, Nat.le_max_right _ _⟩

def length (s : Span) : Nat := s.stop - s.start

def isEmpty (s : Span) : Bool := s.start == s.stop

/-- The smallest span that covers both. -/
def union (s t : Span) : Span where
  start := min s.start t.start
  stop := max s.stop t.stop
  start_le_stop := by have := s.start_le_stop; omega

/-- The part at `first` to `last` relative to the start, cut off at the end. -/
def slice (s : Span) (first last : Nat) : Span :=
  of (min (s.start + first) s.stop) (min (s.start + last) s.stop)

theorem slice_stop_le (s : Span) (first last : Nat) : (s.slice first last).stop ≤ s.stop := by
  simp only [slice, of]
  omega

theorem le_slice_start (s : Span) (first last : Nat) : s.start ≤ (s.slice first last).start := by
  have := s.start_le_stop
  simp only [slice, of]
  omega

end Span

end DataDivision
