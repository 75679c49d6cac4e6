import DataDivision.Text.Numeral

/-!
Dates and times of the TOML notation.

A moment is a date, a time, or both, and then it may say how far from universal time it is.
`Moment.render` writes it in one way only: capital letters, a `T` before the time, and no zeros at
the end of a fraction of a second.
-/

namespace DataDivision.Toml

structure Date where
  year : Nat
  month : Nat
  day : Nat
  deriving DecidableEq, Repr

/-- The time of a day.  The seconds may be left out, and so may their fraction, which is in
billionths. -/
structure Time where
  hour : Nat
  minute : Nat
  second : Option Nat := none
  fraction : Option Nat := none
  deriving DecidableEq, Repr

/-- The distance from universal time. -/
inductive Offset
  | universal
  | minutes (behind : Bool) (n : Nat)
  deriving DecidableEq, Repr

structure Moment where
  date : Option Date := none
  time : Option Time := none
  offset : Option Offset := none
  deriving DecidableEq, Repr

/-! ## Reading -/

/-- A number of two digits within bounds. -/
def pair? (low high : Nat) (a b : Char) : Option Nat :=
  let n := Text.digitsValue [a, b]
  if a.isDigit && b.isDigit && low ≤ n && n ≤ high then some n else none

def isLeapYear (year : Nat) : Bool := (year % 4 == 0 && year % 100 != 0) || year % 400 == 0

def daysIn (year month : Nat) : Nat :=
  if month == 2 then if isLeapYear year then 29 else 28
  else if month == 4 || month == 6 || month == 9 || month == 11 then 30
  else 31

def Date.ofText? : List Char → Option Date
  | [y₁, y₂, y₃, y₄, '-', m₁, m₂, '-', d₁, d₂] => do
    if [y₁, y₂, y₃, y₄].all Char.isDigit then
      let year := Text.digitsValue [y₁, y₂, y₃, y₄]
      let month ← pair? 1 12 m₁ m₂
      let day ← pair? 1 (daysIn year month) d₁ d₂
      return ⟨year, month, day⟩
    else none
  | _ => none

/-- The value of the first nine digits after a point, in billionths. -/
def billionths (digits : List Char) : Nat := Text.digitsValue ((digits ++ List.replicate 9 '0').take 9)

def Time.ofText? : List Char → Option Time
  | h₁ :: h₂ :: ':' :: m₁ :: m₂ :: rest => do
    let hour ← pair? 0 23 h₁ h₂
    let minute ← pair? 0 59 m₁ m₂
    match rest with
    | [] => return { hour, minute }
    | [':', s₁, s₂] => return { hour, minute, second := ← pair? 0 60 s₁ s₂ }
    | ':' :: s₁ :: s₂ :: '.' :: digits =>
      let second ← pair? 0 60 s₁ s₂
      if Text.isDigits digits then
        return { hour, minute, second := second, fraction := billionths digits }
      else none
    | _ => none
  | _ => none

def Offset.ofText? : List Char → Option Offset
  | [c] => if c == 'Z' || c == 'z' then some .universal else none
  | [sign, h₁, h₂, ':', m₁, m₂] => do
    let hours ← pair? 0 23 h₁ h₂
    let minutes ← pair? 0 59 m₁ m₂
    if sign == '+' || sign == '-' then return .minutes (sign == '-') (60 * hours + minutes) else none
  | _ => none

def startsOffset (c : Char) : Bool := c == 'Z' || c == 'z' || c == '+' || c == '-'

/-- A date, a time, or both with a letter or a blank between them. -/
def Moment.ofText? (cs : List Char) : Option Moment :=
  match Time.ofText? cs with
  | some time => some { time := time }
  | none => do
    let date ← Date.ofText? (cs.take 10)
    match cs.drop 10 with
    | [] => return { date := date }
    | c :: rest =>
      if c == 'T' || c == 't' || c == ' ' then
        let time ← Time.ofText? (rest.takeWhile fun c => !startsOffset c)
        match rest.dropWhile fun c => !startsOffset c with
        | [] => return { date := date, time := time }
        | offset => return { date := date, time := time, offset := ← Offset.ofText? offset }
      else none

/-! ## Writing -/

/-- A number with zeros in front up to a width. -/
def padded (width n : Nat) : String :=
  let digits := toString n
  String.ofList (List.replicate (width - digits.length) '0') ++ digits

def Date.render (d : Date) : String :=
  padded 4 d.year ++ "-" ++ padded 2 d.month ++ "-" ++ padded 2 d.day

/-- Billionths as digits after a point, without zeros at the end but for a single one. -/
def renderFraction (n : Nat) : String :=
  match ((padded 9 n).toList.reverse.dropWhile (· == '0')).reverse with
  | [] => ".0"
  | digits => "." ++ String.ofList digits

def Time.render (t : Time) : String :=
  padded 2 t.hour ++ ":" ++ padded 2 t.minute ++
    ((t.second.map fun n => ":" ++ padded 2 n).getD "") ++ (t.fraction.map renderFraction).getD ""

/-- A distance of nothing is not behind. -/
def Offset.render : Offset → String
  | universal => "Z"
  | minutes behind n =>
    (if behind && n != 0 then "-" else "+") ++ padded 2 (n / 60) ++ ":" ++ padded 2 (n % 60)

def Moment.render (m : Moment) : String :=
  let date := (m.date.map Date.render).getD ""
  let time := (m.time.map Time.render).getD ""
  date ++ (if m.date.isSome && m.time.isSome then "T" else "") ++ time ++
    (m.offset.map Offset.render).getD ""

end DataDivision.Toml
