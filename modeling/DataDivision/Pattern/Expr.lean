import DataDivision.Pattern.CharSet

/-!
Pattern expressions.

`concat`, `alternation` and `repetition` build expressions in a normal form: a sequence holds no
sequences and no two literals in a row, alternatives are no alternatives themselves, alternatives
that are single characters or sets are one set, and parts that all alternatives start with stand
before them.
-/

namespace DataDivision.Pattern

/-! ## Assertions -/

/-- Which characters words are made of. -/
inductive Alphabet
  | every
  | ascii
  deriving DecidableEq, Repr

def Alphabet.isWord : Alphabet → Char → Bool
  | every => Text.isWord
  | ascii => Text.isAsciiWord

/-- A condition on a place between two characters.  A line ends at a feed, or at a return and a
feed, where `returns` says so. -/
inductive Assertion
  | textStart
  | textEnd
  | lineStart (returns : Bool)
  | lineEnd (returns : Bool)
  | wordBoundary (words : Alphabet)
  | noWordBoundary (words : Alphabet)
  | wordStart (words : Alphabet)
  | wordEnd (words : Alphabet)
  /-- No word goes on here from before. -/
  | noWordBefore (words : Alphabet)
  /-- No word goes on here afterwards. -/
  | noWordAfter (words : Alphabet)
  deriving DecidableEq, Repr

namespace Assertion

/-- Whether the condition holds between the characters `before` and `after`. -/
def holds (before after : Option Char) : Assertion → Bool
  | textStart => before.isNone
  | textEnd => after.isNone
  | lineStart returns =>
    before.isNone || before == some '\n' ||
      (returns && before == some '\r' && after != some '\n')
  | lineEnd returns =>
    after.isNone || (returns && after == some '\r') ||
      (after == some '\n' && !(returns && before == some '\r'))
  | wordBoundary w => before.any w.isWord != after.any w.isWord
  | noWordBoundary w => before.any w.isWord == after.any w.isWord
  | wordStart w => !before.any w.isWord && after.any w.isWord
  | wordEnd w => before.any w.isWord && !after.any w.isWord
  | noWordBefore w => !before.any w.isWord
  | noWordAfter w => !after.any w.isWord

end Assertion

/-! ## Expressions -/

inductive Expr
  | empty
  /-- Characters in a row, at least one. -/
  | literal (cs : List Char)
  | one (s : CharSet)
  | assertion (a : Assertion)
  | seq (a b : Expr)
  | alt (a b : Expr)
  /-- At least `least` times and, if given, at most `most` times. -/
  | repeated (least : Nat) (most : Option Nat) (greedy : Bool) (a : Expr)
  /-- The capturing group with the given number. -/
  | group (number : Nat) (a : Expr)
  deriving DecidableEq, Repr

namespace Expr

/-- The least number of characters of a match.  There is none if a set on the way is empty. -/
def leastLength? : Expr → Option Nat
  | empty => some 0
  | literal cs => some cs.length
  | one s => if s = .none then none else some 1
  | assertion _ => some 0
  | seq a b => do return (← a.leastLength?) + (← b.leastLength?)
  | alt a b => do return min (← a.leastLength?) (← b.leastLength?)
  | repeated least _ _ a => a.leastLength?.map (· * least)
  | group _ a => a.leastLength?

/-- Every match has a character. -/
def consumes (e : Expr) : Bool := e.leastLength?.any (0 < ·)

/-- No match has a character. -/
def isHollow : Expr → Bool
  | empty => true
  | literal _ => false
  | one _ => false
  | assertion _ => true
  | seq a b => a.isHollow && b.isHollow
  | alt a b => a.isHollow && b.isHollow
  | repeated _ most _ a => most.isSome && a.isHollow
  | group _ a => a.isHollow

def size : Expr → Nat
  | seq a b => a.size + b.size + 1
  | alt a b => a.size + b.size + 1
  | repeated _ _ _ a => a.size + 1
  | group _ a => a.size + 1
  | _ => 1

/-! ## Sequences -/

/-- What stands in a row. -/
def parts : Expr → List Expr
  | empty => []
  | seq a b => a.parts ++ b.parts
  | e => [e]

/-- Literals that stand side by side become one. -/
def joinLiterals : List Expr → List Expr
  | [] => []
  | literal cs :: rest =>
    match joinLiterals rest with
    | literal ds :: more => literal (cs ++ ds) :: more
    | more => literal cs :: more
  | e :: rest => e :: joinLiterals rest

def ofParts : List Expr → Expr
  | [] => empty
  | [e] => e
  | e :: rest => seq e (ofParts rest)

def concat (es : List Expr) : Expr := ofParts (joinLiterals (es.flatMap parts))

/-! ## Alternatives -/

def ofSet (s : CharSet) : Expr :=
  match s.only? with
  | some c => literal [c]
  | none => one s

/-- The choices, in order of preference. -/
def branches : Expr → List Expr
  | alt a b => a.branches ++ b.branches
  | e => [e]

def ofBranches : List Expr → Expr
  | [] => one .none
  | [e] => e
  | e :: rest => alt e (ofBranches rest)

def single? : Expr → Option CharSet
  | literal [c] => some (.single c)
  | _ => none

def set? : Expr → Option CharSet
  | one s => some s
  | _ => none

/-- What two rows have in common at their front. -/
def commonFront : List Expr → List Expr → List Expr
  | a :: as, b :: bs => if a = b then a :: commonFront as bs else []
  | _, _ => []

/-- What all rows have in common at their front, if each has more than one part. -/
def sharedFront (rows : List (List Expr)) : List Expr :=
  if rows.all (1 < ·.length) then
    match rows with
    | [] => []
    | row :: rest => rest.foldl commonFront row
  else []

/-- Alternatives; `fuel` bounds how often a common front is taken out. -/
def alternationWithin : Nat → List Expr → Expr
  | 0, es => ofBranches es
  | fuel + 1, es =>
    let choices := es.flatMap branches
    if choices.length ≤ 1 then ofBranches choices
    else
      match (choices.mapM single?).or (choices.mapM set?) with
      | some sets => ofSet (.unions sets)
      | none =>
        let rows := choices.map parts
        let front := sharedFront rows
        if front.isEmpty then ofBranches choices
        else
          concat (front ++
            [alternationWithin fuel (rows.map fun row => concat (row.drop front.length))])

def alternation (es : List Expr) : Expr :=
  alternationWithin (es.foldl (fun n e => n + e.size) 1) es

/-! ## Repetitions -/

/-- Repeats an expression.  What has no characters is not repeated more than once. -/
def repetition (least : Nat) (most : Option Nat) (greedy : Bool) (e : Expr) : Expr :=
  let least := if e.isHollow then min least 1 else least
  let most := if e.isHollow then some (min (most.getD 1) 1) else most
  if most = some 0 then empty
  else if least = 1 ∧ most = some 1 then e
  else repeated least most greedy e

end Expr

end DataDivision.Pattern
