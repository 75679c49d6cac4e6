/-!
Written values.

Values in the JSON notation, with the members of objects in a given order.  A text is quoted with
the short escapes where there are any, control characters are written by their codes, and all else
stands for itself.  The wide form puts every item on a line of its own, two blanks further in than
the brackets around it.
-/

namespace DataDivision.Report

inductive Value
  | bool (b : Bool)
  | nat (n : Nat)
  | text (s : String)
  | list (items : List Value)
  | object (members : List (String × Value))
  deriving Repr

namespace Value

/-! ## Texts -/

def hexDigit (n : Nat) : Char := if n < 10 then Char.ofNat (48 + n) else Char.ofNat (87 + n)

def escape (c : Char) : List Char :=
  if c = '"' then ['\\', '"']
  else if c = '\\' then ['\\', '\\']
  else if c = '\n' then ['\\', 'n']
  else if c = '\r' then ['\\', 'r']
  else if c = '\t' then ['\\', 't']
  else if c = '\x08' then ['\\', 'b']
  else if c = '\x0c' then ['\\', 'f']
  else if c.toNat < 32 then ['\\', 'u', '0', '0', hexDigit (c.toNat / 16), hexDigit (c.toNat % 16)]
  else [c]

def quote (s : String) : List Char := '"' :: (s.toList.flatMap escape ++ ['"'])

/-! ## Values -/

/-- Items between brackets, without blanks. -/
def bracket (first last : Char) (items : List (List Char)) : List Char :=
  first :: (List.intercalate [','] items ++ [last])

/-- The line break before an item at the given depth. -/
def newline (depth : Nat) : List Char := '\n' :: List.replicate (2 * depth) ' '

/-- Items between brackets, each on its own line. -/
def bracketWide (depth : Nat) (first last : Char) (items : List (List Char)) : List Char :=
  if items.isEmpty then [first, last]
  else
    first :: (newline (depth + 1) ++ List.intercalate (',' :: newline (depth + 1)) items ++
      newline depth ++ [last])

mutual

def compact : Value → List Char
  | bool b => if b then "true".toList else "false".toList
  | nat n => (toString n).toList
  | text s => quote s
  | list items => bracket '[' ']' (compactItems items)
  | object members => bracket '\x7b' '\x7d' (compactMembers members)

def compactItems : List Value → List (List Char)
  | [] => []
  | v :: rest => compact v :: compactItems rest

def compactMembers : List (String × Value) → List (List Char)
  | [] => []
  | (key, v) :: rest => (quote key ++ ':' :: compact v) :: compactMembers rest

end

mutual

/-- A value on several lines, inside brackets of the given depth. -/
def wide (depth : Nat) : Value → List Char
  | bool b => if b then "true".toList else "false".toList
  | nat n => (toString n).toList
  | text s => quote s
  | list items => bracketWide depth '[' ']' (wideItems (depth + 1) items)
  | object members => bracketWide depth '\x7b' '\x7d' (wideMembers (depth + 1) members)

def wideItems (depth : Nat) : List Value → List (List Char)
  | [] => []
  | v :: rest => wide depth v :: wideItems depth rest

def wideMembers (depth : Nat) : List (String × Value) → List (List Char)
  | [] => []
  | (key, v) :: rest => (quote key ++ ':' :: ' ' :: wide depth v) :: wideMembers depth rest

end

/-- The text of a value, on one line or on several. -/
def render (onOneLine : Bool) (v : Value) : String :=
  String.ofList (if onOneLine then v.compact else v.wide 0)

end Value

end DataDivision.Report
