import DataDivision.Rules.Document

/-!
Sections of a document.

A section is a table of settings by their names, or a list of settings in the order in which a
reader asks for them.  Either way a setting that is not given has its default.
-/

namespace DataDivision

/-- The settings of a section that are still to be read. -/
inductive Settings
  | named (entries : List (String × Document))
  | ordered (items : List Document)

/-- What becomes of items of a list after the last setting. -/
inductive Surplus
  | refused
  | ignored
  deriving DecidableEq, Repr

/-- Reads settings one after the other. -/
abbrev SectionReader := StateT Settings Option

/-- The setting with the given name, or the next one in order. -/
def setting {α : Type} (name : String) (read : Document → Option α) (default : α) :
    SectionReader α
  | .named entries =>
    match entries.lookup name with
    | none => some (default, .named entries)
    | some d => (read d).map (·, .named entries)
  | .ordered [] => some (default, .ordered [])
  | .ordered (d :: rest) => (read d).map (·, .ordered rest)

namespace Settings

def ofDocument? : Document → Option Settings
  | .list items => some (.ordered items)
  | d => d.asTable?.map .named

/-- Some items of a list have not been read. -/
def isSurplus : Settings → Bool
  | named _ => false
  | ordered items => !items.isEmpty

end Settings

def Document.asSection? {α : Type} (surplus : Surplus) (reader : SectionReader α) (d : Document) :
    Option α := do
  let (a, rest) ← reader (← Settings.ofDocument? d)
  if surplus = .refused ∧ rest.isSurplus then none else return a

end DataDivision
