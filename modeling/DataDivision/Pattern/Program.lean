import DataDivision.Pattern.Expr

/-!
The programs that search for patterns.

A program is a list of instructions.  Each is reached by its index, and of two ways to go on the
first is preferred, so that the order of the threads of a search is their order of preference.
-/

namespace DataDivision.Pattern

/-- One step of a search. -/
inductive Instr
  | consume (s : CharSet)
  | check (a : Assertion)
  | split (first second : Nat)
  | jump (target : Nat)
  /-- The first capturing group starts or ends here. -/
  | mark (opening : Bool)
  | accept
  deriving DecidableEq, Repr

/-- Two ways to go on, in the order that greed asks for. -/
def Instr.choose (greedy : Bool) (inner outer : Nat) : Instr :=
  if greedy then split inner outer else split outer inner

/-- `n` copies of a block in a row; `block` makes the copy that starts at a given index. -/
def copies (block : Nat → List Instr) : Nat → Nat → List Instr
  | 0, _ => []
  | n + 1, base =>
    let first := block base
    first ++ copies block n (base + first.length)

/-- At most `n` copies of a block, each entered only if the one before it was. -/
def optionals (greedy : Bool) (block : Nat → List Instr) (length : Nat) : Nat → Nat → List Instr
  | 0, _ => []
  | n + 1, base =>
    Instr.choose greedy (base + 1) (base + (n + 1) * (length + 1)) ::
      (block (base + 1) ++ optionals greedy block length n (base + 1 + length))

/-- One copy of a block, which may be repeated any number of times. -/
def loop (greedy : Bool) (block : Nat → List Instr) (base : Nat) : List Instr :=
  let body := block base
  body ++ [Instr.choose greedy base (base + body.length + 1)]

namespace Expr

/-- The instructions of an expression from the index `base` on. -/
def code : Expr → Nat → List Instr
  | empty, _ => []
  | literal cs, _ => cs.map fun c => .consume (.single c)
  | one s, _ => [.consume s]
  | assertion a, _ => [.check a]
  | seq a b, base =>
    let first := a.code base
    first ++ b.code (base + first.length)
  | alt a b, base =>
    let first := a.code (base + 1)
    let second := b.code (base + first.length + 2)
    .split (base + 1) (base + first.length + 2) ::
      (first ++ .jump (base + first.length + 2 + second.length) :: second)
  | group number a, base =>
    if number = 1 then .mark true :: (a.code (base + 1) ++ [.mark false]) else a.code base
  | repeated least none greedy a, base =>
    if least = 0 then
      if a.consumes then
        let body := a.code (base + 1)
        Instr.choose greedy (base + 1) (base + body.length + 2) :: (body ++ [.jump base])
      else
        let body := loop greedy a.code (base + 1)
        Instr.choose greedy (base + 1) (base + 1 + body.length) :: body
    else
      let before := copies a.code (least - 1) base
      before ++ loop greedy a.code (base + before.length)
  | repeated least (some most) greedy a, base =>
    let before := copies a.code least base
    let length := (a.code base).length
    before ++ optionals greedy a.code length (most - least) (base + before.length)

def program (e : Expr) : List Instr := e.code 0 ++ [.accept]

end Expr

end DataDivision.Pattern
