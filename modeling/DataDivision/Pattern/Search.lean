import DataDivision.Pattern.Engine
import DataDivision.Pattern.Program

/-!
Searching.

All threads of a search advance together, in order of preference, one character at a time.  The
match that counts starts leftmost, and among those that start there it is the preferred one.
-/

namespace DataDivision.Pattern

/-- One way a match may go on: the next instruction, where the match started, and where the first
capturing group started and ended so far. -/
structure Thread where
  next : Nat
  start : Nat
  groupStart : Option Nat := none
  groupStop : Option Nat := none
  deriving DecidableEq, Repr

/-- A match, and the first capturing group if it took part. -/
structure Match where
  start : Nat
  stop : Nat
  group : Option (Nat × Nat)
  deriving DecidableEq, Repr

/-- A place in the text: its index and the characters around it. -/
structure Place where
  index : Nat
  before : Option Char
  after : Option Char
  deriving DecidableEq, Repr

/-- The threads that an instruction hands on without reading a character, or the thread itself if
it waits for one. -/
def Thread.advance (t : Thread) (place : Place) : Instr → List Thread
  | .jump target => [{ t with next := target }]
  | .split first second => [{ t with next := first }, { t with next := second }]
  | .check a => if a.holds place.before place.after then [{ t with next := t.next + 1 }] else []
  | .mark true => [{ t with next := t.next + 1, groupStart := some place.index }]
  | .mark false => [{ t with next := t.next + 1, groupStop := some place.index }]
  | .consume _ | .accept => []

/-- Follows threads until each waits for a character or accepts.  Every instruction is entered once
at most, by the preferred thread. -/
def follow (program : Array Instr) (place : Place) (unseen : List Nat) (threads : List Thread) :
    List Thread :=
  match threads with
  | [] => []
  | t :: rest =>
    if t.next ∈ unseen then
      match program[t.next]? with
      | some (.consume _) | some .accept =>
        t :: follow program place (unseen.erase t.next) rest
      | some i => follow program place (unseen.erase t.next) (t.advance place i ++ rest)
      | none => follow program place (unseen.erase t.next) rest
    else follow program place unseen rest
termination_by (unseen.length, threads.length)
decreasing_by
  all_goals first
    | (apply Prod.Lex.left
       rw [List.length_erase_of_mem ‹_›]
       have := List.length_pos_of_mem ‹t.next ∈ unseen›
       omega)
    | (apply Prod.Lex.right; simp)

/-- The threads preferred over the first one that accepts, and that one's match. -/
def cut (program : Array Instr) (index : Nat) : List Thread → List Thread × Option Match
  | [] => ([], none)
  | t :: rest =>
    match program[t.next]? with
    | some .accept => ([], some ⟨t.start, index, t.groupStart.bind fun a =>
        t.groupStop.map fun b => (a, b)⟩)
    | _ => let (ts, m) := cut program index rest; (t :: ts, m)

/-- The thread after reading `c`, if it waits for that character. -/
def Thread.read (program : Array Instr) (c : Char) (t : Thread) : Option Thread :=
  match program[t.next]? with
  | some (.consume s) => if s.contains c then some { t with next := t.next + 1 } else none
  | _ => none

/-- Searches the rest of a text.  `best` is the match found so far; without one, a new thread
starts at every place. -/
def searchFrom (program : Array Instr) (index : Nat) (before : Option Char)
    (threads : List Thread) (best : Option Match) (text : List Char) : Option Match :=
  let started := if best.isNone then threads ++ [⟨0, index, none, none⟩] else threads
  let waiting := follow program ⟨index, before, text.head?⟩ (List.range program.size) started
  let (kept, found) := cut program index waiting
  let best := found.or best
  match text with
  | [] => best
  | c :: rest => searchFrom program (index + 1) (some c) (kept.filterMap (·.read program c)) best
    rest

def search (program : Array Instr) (text : List Char) : Option Match :=
  searchFrom program 0 none [] none text

def captures? (program : Array Instr) (text : List Char) : Option Captures :=
  (search program text).map fun m =>
    ⟨text.extract m.start m.stop, m.group.map fun (start, stop) => text.extract start stop⟩

end DataDivision.Pattern
