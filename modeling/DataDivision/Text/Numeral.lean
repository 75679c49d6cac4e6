/-!
Numerals, decimal and hexadecimal.
-/

namespace DataDivision.Text

def digitsValue (cs : List Char) : Nat := cs.foldl (fun n c => 10 * n + (c.toNat - '0'.toNat)) 0

/-- A nonempty run of ASCII digits and nothing else. -/
def isDigits (cs : List Char) : Bool := !cs.isEmpty && cs.all Char.isDigit

/-- Reads an unsigned number of at most `limit`: digits, after at most one plus sign. -/
def readNat? (limit : Nat) (cs : List Char) : Option Nat :=
  let digits := match cs with
    | '+' :: rest => rest
    | _ => cs
  if isDigits digits && digitsValue digits ≤ limit then some (digitsValue digits) else none

def hexValue? (c : Char) : Option Nat :=
  if c.isDigit then some (c.toNat - '0'.toNat)
  else if 'a' ≤ c ∧ c ≤ 'f' then some (c.toNat - 'a'.toNat + 10)
  else if 'A' ≤ c ∧ c ≤ 'F' then some (c.toNat - 'A'.toNat + 10)
  else none

/-- The value of a nonempty run of digits in a base of at most sixteen. -/
def readBase? (base : Nat) (digits : List Char) : Option Nat := do
  let values ← digits.mapM hexValue?
  if values.isEmpty || values.any (base ≤ ·) then none
  else some (values.foldl (fun n d => base * n + d) 0)

def hexChar? (digits : List Char) : Option Char :=
  (readBase? 16 digits).bind fun n => if n.isValidChar then some (Char.ofNat n) else none

/-- A number below one hundred in two digits, larger ones in as many as they need. -/
def twoDigits (n : Nat) : String := if n < 10 then "0" ++ toString n else toString n

def maxWord32 : Nat := 4294967295

def maxInt64 : Int := 9223372036854775807

def minInt64 : Int := -9223372036854775808

def maxWord64 : Nat := 18446744073709551615

end DataDivision.Text
