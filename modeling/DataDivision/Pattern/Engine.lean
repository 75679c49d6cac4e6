/-!
Engines for patterns.

What patterns there are and what they match is up to an engine.  It turns the text of a pattern into
a search, or refuses it.  Of a match only the whole and the part of the first capturing group count.
-/

namespace DataDivision.Pattern

/-- A match: its text, and the part of the first capturing group if that group took part. -/
structure Captures where
  whole : List Char
  first : Option (List Char) := none
  deriving DecidableEq, Repr

/-- The part of the first group, or the whole match without it. -/
def Captures.key (captures : Captures) : List Char := captures.first.getD captures.whole

/-- What searches for patterns. -/
structure Engine where
  /-- The search for the first match of a pattern, unless the pattern is refused. -/
  compile? : String → Option (List Char → Option Captures)

end DataDivision.Pattern
