import DataDivision.Rules.Document
import DataDivision.Toml.Moment

/-!
Scalars of the TOML notation without quotes: truth values, whole numbers, dates and times, and the
fractions that the rules have no use for but must be told from mistakes.
-/

namespace DataDivision.Toml

def isScalarChar (c : Char) : Bool :=
  c.isAlphanum || c == '+' || c == '-' || c == '_' || c == '.' || c == ':'

/-! ## Numbers -/

/-- Digits with single underscores between them, without the underscores. -/
def plainDigits? (accepts : Char → Bool) : List Char → Option (List Char)
  | [] => none
  | [c] => if accepts c then some [c] else none
  | c :: '_' :: rest => if accepts c then (plainDigits? accepts rest).map (c :: ·) else none
  | c :: rest => if accepts c then (plainDigits? accepts rest).map (c :: ·) else none

/-- The digits of a whole number: a zero stands in front only if it is all. -/
def wholeDigits? (cs : List Char) : Option (List Char) :=
  (plainDigits? Char.isDigit cs).filter fun digits => digits.head? != some '0' || digits.length == 1

def splitSign : List Char → Bool × List Char
  | '-' :: rest => (true, rest)
  | '+' :: rest => (false, rest)
  | cs => (false, cs)

def decimal? (cs : List Char) : Option Int := do
  let (negative, body) := splitSign cs
  let digits ← wholeDigits? body
  let n : Int := Text.digitsValue digits
  return if negative then -n else n

/-- The base that a letter after a zero announces. -/
def base? : Char → Option Nat
  | 'x' => some 16
  | 'o' => some 8
  | 'b' => some 2
  | _ => none

/-- A whole number with its base in front. -/
def based? : List Char → Option Int
  | '0' :: letter :: rest => do
    let base ← base? letter
    let digits ← plainDigits? (fun c => (Text.hexValue? c).any (· < base)) rest
    let n ← Text.readBase? base digits
    return (n : Int)
  | _ => none

def minInteger : Int := -170141183460469231731687303715884105728

def maxInteger : Int := 340282366920938463463374607431768211455

/-- A whole number that can be kept in 128 bits. -/
def integer? (cs : List Char) : Option Int :=
  ((decimal? cs).or (based? cs)).filter fun n => minInteger ≤ n && n ≤ maxInteger

/-! ## Fractions -/

/-- A decimal fraction, regardless of its sign: `digits` with the point moved to the right by
`exponent` places. -/
structure Fraction where
  digits : Nat
  exponent : Int
  deriving DecidableEq, Repr

namespace Fraction

/-- The least number that is too large for a double: halfway between the greatest one and the next
power of two. -/
def overflow : Nat := Nat.pow 2 1024 - Nat.pow 2 970

/-- The fraction rounds to a finite double. -/
def isFinite (f : Fraction) : Bool :=
  let places := (toString f.digits).length
  if f.digits = 0 then true
  else if 400 < f.exponent then false
  else if 0 ≤ f.exponent then f.digits * Nat.pow 10 f.exponent.toNat < overflow
  else if (places : Int) + f.exponent < 0 then true
  else f.digits < overflow * Nat.pow 10 (-f.exponent).toNat

end Fraction

/-- The exponent of a fraction, after its letter. -/
def exponent? (cs : List Char) : Option Int := do
  let (negative, body) := splitSign cs
  let digits ← plainDigits? Char.isDigit body
  let n : Int := Text.digitsValue digits
  return if negative then -n else n

def isExponentMark (c : Char) : Bool := c == 'e' || c == 'E'

/-- A number with a decimal point or an exponent. -/
def fraction? (cs : List Char) : Option Fraction := do
  let body := (splitSign cs).2
  let mantissa := body.takeWhile fun c => !isExponentMark c
  let mark := body.dropWhile fun c => !isExponentMark c
  let whole ← wholeDigits? (mantissa.takeWhile (· != '.'))
  let places ← match mantissa.dropWhile (· != '.') with
    | [] => if mark.isEmpty then none else some []
    | _ :: places => plainDigits? Char.isDigit places
  let exponent ← match mark with
    | [] => some 0
    | _ :: digits => exponent? digits
  return ⟨Text.digitsValue (whole ++ places), exponent - places.length⟩

/-- A fraction that a double can hold, or one of the words for no number. -/
def isFraction (cs : List Char) : Bool :=
  let body := (splitSign cs).2
  body == "inf".toList || body == "nan".toList || (fraction? cs).any Fraction.isFinite

/-! ## Scalars -/

def scalarOf? (word : List Char) : Option Document :=
  if word == "true".toList then some (.bool true)
  else if word == "false".toList then some (.bool false)
  else
    match integer? word with
    | some n => some (.int n)
    | none =>
      match Moment.ofText? word with
      | some m => some (.moment m.render)
      | none => if isFraction word then some .other else none

/-- The characters of a scalar at the front, and the rest.  A single blank joins a date and a
time. -/
def scalarWord (cs : List Char) : List Char × List Char :=
  let word := cs.takeWhile isScalarChar
  match cs.dropWhile isScalarChar with
  | ' ' :: c :: rest =>
    if (Date.ofText? word).isSome && c.isDigit then
      (word ++ ' ' :: (c :: rest).takeWhile isScalarChar, (c :: rest).dropWhile isScalarChar)
    else (word, ' ' :: c :: rest)
  | rest => (word, rest)

def scalar? (cs : List Char) : Option (Document × List Char) :=
  let (word, rest) := scalarWord cs
  (scalarOf? word).map (·, rest)

end DataDivision.Toml
