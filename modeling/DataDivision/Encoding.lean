import DataDivision.Text.Blank
import DataDivision.Text.Case

/-!
Storage encodings.
-/

namespace DataDivision

/-- How the value of an elementary item is stored. -/
inductive Encoding
  /-- One byte for each picture position. -/
  | character
  /-- A big-endian integer. -/
  | binary
  /-- A single precision number. -/
  | float
  /-- A double precision number. -/
  | double
  /-- Two digits in a byte, with a sign in the last half. -/
  | packedDecimal
  /-- An integer in the byte order of the machine. -/
  | nativeBinary
  deriving DecidableEq, Repr

namespace Encoding

def name : Encoding → String
  | character => "character"
  | binary => "binary"
  | float => "float"
  | double => "double"
  | packedDecimal => "packed_decimal"
  | nativeBinary => "native_binary"

/-- Reads the name of an encoding, in any case and with blanks around it. -/
def ofName? (text : String) : Option Encoding :=
  let word := Text.asciiLower (Text.trimmed text)
  if word = "character" ∨ word = "display" then some character
  else if word = "binary" then some binary
  else if word = "float" then some float
  else if word = "double" then some double
  else if word = "packed_decimal" ∨ word = "packed-decimal" then some packedDecimal
  else if word = "native_binary" ∨ word = "native-binary" then some nativeBinary
  else none

/-- The complaint about a name that belongs to no encoding. -/
def unknownMessage (text : String) : String := s!"unknown encoding `{text}`"

end Encoding

end DataDivision
