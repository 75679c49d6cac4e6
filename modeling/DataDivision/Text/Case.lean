import DataDivision.Text.CaseTable

/-!
Upper and lower case.

ASCII mappings leave every other character alone; `upper` and `lower` are the full mappings of
Unicode, under which one character may become several and a sigma at the end of a word takes its
final form.
-/

namespace DataDivision.Text

/-! ## ASCII -/

def asciiUpper (s : String) : String := String.ofList (s.toList.map Char.toUpper)

def asciiLower (s : String) : String := String.ofList (s.toList.map Char.toLower)

/-- Equality up to the case of ASCII letters. -/
def sameIgnoringCase (s t : String) : Bool :=
  s.toList.map Char.toLower == t.toList.map Char.toLower

/-! ## Full mappings -/

def upperChar (c : Char) : List Char :=
  if c.toNat < 128 then [c.toUpper]
  else
    match upperExpansions.lookup c.toNat with
    | some codes => codes.map Char.ofNat
    | none => [Char.ofNat (applyShifts upperShifts c.toNat)]

/-- The lower-case form of a character, apart from a final sigma. -/
def lowerChar (c : Char) : List Char :=
  if c.toNat < 128 then [c.toLower]
  else if c = 'İ' then ['i', '\u0307']
  else [Char.ofNat (applyShifts lowerShifts c.toNat)]

def isCased (c : Char) : Bool := inside casedTable c.toNat

def isCaseIgnorable (c : Char) : Bool := inside caseIgnorableTable c.toNat

/-- The nearest character that is not ignorable has case. -/
def nextToCased (cs : List Char) : Bool :=
  match cs.dropWhile isCaseIgnorable with
  | [] => false
  | c :: _ => isCased c

/-- Lower-cases a text from the left; `before` holds the characters already read, latest first. -/
def lowerFrom (before : List Char) : List Char → List Char
  | [] => []
  | c :: rest =>
    if c = 'Σ' then
      (if nextToCased before && !nextToCased rest then 'ς' else 'σ') :: lowerFrom (c :: before) rest
    else lowerChar c ++ lowerFrom (c :: before) rest

def upper (s : String) : String := String.ofList (s.toList.flatMap upperChar)

def lower (s : String) : String := String.ofList (lowerFrom [] s.toList)

end DataDivision.Text
