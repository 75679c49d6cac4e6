import DataDivision.Text.Line

/-!
Trees of files.

A tree holds the files below one directory, each by the names on the way to it.  Directories are
the places that lie on the way to a file.  Paths are followed name by name, and the first name that
leads nowhere decides how that fails.
-/

namespace DataDivision

/-- Why a file cannot be read or written. -/
inductive FileError
  | notFound
  | notDirectory
  | isDirectory
  | nameTooLong
  /-- A path holds the character that ends names. -/
  | endOfName
  /-- The bytes are not UTF-8. -/
  | notText
  | other (cause : String)
  deriving DecidableEq, Repr

def FileError.message : FileError → String
  | notFound => "No such file or directory (os error 2)"
  | notDirectory => "Not a directory (os error 20)"
  | isDirectory => "Is a directory (os error 21)"
  | nameTooLong => "File name too long (os error 36)"
  | endOfName => "file name contained an unexpected NUL byte"
  | notText => "stream did not contain valid UTF-8"
  | other cause => cause

/-- Access to files, in a monad that can reach them. -/
structure FileAccess (m : Type → Type) where
  /-- A file or a directory stands there. -/
  existsAt : String → m Bool
  read : String → m (Except FileError String)
  /-- Puts a text into a file, in place of what it holds. -/
  write : String → String → m (Except FileError Unit)

/-- The files below a directory. -/
structure FileTree where
  files : List (List String × ByteArray) := []

namespace FileTree

/-- What stands at a place. -/
inductive Place
  | file (bytes : ByteArray)
  | directory
  | missing

/-- The place that names lead to. -/
def place (t : FileTree) (names : List String) : Place :=
  match t.files.lookup names with
  | some bytes => .file bytes
  | none =>
    if names.isEmpty || t.files.any fun (file, _) => names.isPrefixOf file then .directory
    else .missing

/-! ## Paths -/

/-- The largest number of bytes of a name. -/
def maxNameLength : Nat := 255

/-- The largest number of bytes of a path. -/
def maxPathLength : Nat := 4095

/-- The names of a path, empty where two slashes meet. -/
def namesOf (path : String) : List String := (Text.pieces '/' path.toList).map String.ofList

def ofFiles (files : List (String × ByteArray)) : FileTree :=
  ⟨files.map fun (path, bytes) => ((namesOf path).filter fun n => n != "" && n != ".", bytes)⟩

/-- Refuses what is no path below the directory of the tree. -/
def check (path : String) : Except FileError Unit :=
  if path.toList.contains '\x00' then .error .endOfName
  else if maxPathLength < path.utf8ByteSize then .error .nameTooLong
  else if path.isEmpty || path.toList.head? = some '/' then .error .notFound
  else .ok ()

/-- The directory at the given names can be entered. -/
def enter (t : FileTree) (names : List String) : Except FileError Unit :=
  match t.place names with
  | .directory => .ok ()
  | .file _ => .error .notDirectory
  | .missing => .error .notFound

/-- Follows further names from the place `here`.  An empty name and a dot stay, and two dots go up,
though not out of the tree. -/
def follow (t : FileTree) (here : List String) : List String → Except FileError (List String)
  | [] => .ok here
  | name :: rest => do
    t.enter here
    if name = "" ∨ name = "." then follow t here rest
    else if name = ".." then
      if here.isEmpty then .error .notFound else follow t here.dropLast rest
    else if maxNameLength < name.utf8ByteSize then .error .nameTooLong
    else follow t (here ++ [name]) rest

/-- What stands at a path. -/
def lookup (t : FileTree) (path : String) : Except FileError Place := do
  check path
  match t.place (← t.follow [] (namesOf path)) with
  | .missing => .error .notFound
  | found => .ok found

/-! ## Access -/

def existsAt (t : FileTree) (path : String) : Bool := (t.lookup path).isOk

def read (t : FileTree) (path : String) : Except FileError String := do
  match ← t.lookup path with
  | .file bytes =>
    match String.fromUTF8? bytes with
    | some text => .ok text
    | none => .error .notText
  | _ => .error .isDirectory

/-- The tree with a file in place of what its names lead to. -/
def put (t : FileTree) (names : List String) (bytes : ByteArray) : FileTree :=
  ⟨t.files.filter (·.1 != names) ++ [(names, bytes)]⟩

/-- Writes a file.  The directory around it must be there already, and the path must name a file
and not a directory. -/
def write (t : FileTree) (path text : String) : Except FileError FileTree := do
  check path
  let names := namesOf path
  let closed := names.getLast? = some ""
  let steps := (names.reverse.dropWhile (· == "")).reverse
  let parent ← t.follow [] steps.dropLast
  t.enter parent
  let last := steps.getLast?.getD "."
  if closed ∨ last = "." ∨ last = ".." then .error .isDirectory
  else if maxNameLength < last.utf8ByteSize then .error .nameTooLong
  else
    match t.place (parent ++ [last]) with
    | .directory => .error .isDirectory
    | _ => .ok (t.put (parent ++ [last]) text.toUTF8)

/-- Access to a tree that is carried along. -/
def access : FileAccess (StateM FileTree) where
  existsAt path := do return (← get).existsAt path
  read path := do return (← get).read path
  write path text := do
    match (← get).write path text with
    | .ok t =>
      set t
      return .ok ()
    | .error e => return .error e

end FileTree

end DataDivision
