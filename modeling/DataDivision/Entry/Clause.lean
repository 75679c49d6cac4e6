import DataDivision.Entry.Token
import DataDivision.Text.Case
import DataDivision.Text.Numeral

/-!
The clauses of an entry.

Clauses stand in any order.  Each begins with a keyword, in any case; words that belong to no clause
are passed over.  Of several clauses of a kind the last one counts, except that the first value
does.
-/

namespace DataDivision.Entry

/-- The usages that need no keyword before them. -/
def usageWords : List String :=
  ["BINARY", "COMP", "COMP-1", "COMP-2", "COMP-3", "COMP-4", "COMP-5", "COMPUTATIONAL",
    "COMPUTATIONAL-1", "COMPUTATIONAL-2", "COMPUTATIONAL-3", "COMPUTATIONAL-4",
    "COMPUTATIONAL-5", "DISPLAY", "PACKED-DECIMAL"]

/-- The usages of floating point numbers, which have no picture. -/
def floatUsages : List String := ["COMP-1", "COMP-2", "COMPUTATIONAL-1", "COMPUTATIONAL-2"]

/-- What the clauses of an entry say. -/
structure Clauses where
  picture : Option String := none
  usage : Option String := none
  occurs : Option Nat := none
  redefines : Option String := none
  value : Option String := none
  deriving DecidableEq, Repr

/-- Why the clauses of an entry cannot be used. -/
inductive ClauseError
  /-- A picture clause without a word after it. -/
  | missingPicture
  /-- A repetition without a positive count. -/
  | invalidOccurs
  deriving DecidableEq, Repr

/-- A word as it is compared with keywords: without its period, in upper case. -/
def keyword (word : List Char) : String :=
  String.ofList ((dropPeriod word).map Char.toUpper)

/-- A word without its period. -/
def bare (word : List Char) : String := String.ofList (dropPeriod word)

/-- Passes over the next token if it is one of the given keywords. -/
def skipWord (keywords : List String) : List Token → List Token
  | .word w :: rest => if keywords.contains (keyword w) then rest else .word w :: rest
  | tokens => tokens

/-- The next token if it is a word, and what follows it. -/
def takeWord : List Token → Option (List Char) × List Token
  | .word w :: rest => (some w, rest)
  | tokens => (none, tokens)

/-- The text of the next token, and what follows it. -/
def takeLiteral : List Token → Option String × List Token
  | .word w :: rest => (some (bare w), rest)
  | .literal t :: rest => (some (String.ofList t), rest)
  | [] => (none, [])

/-- The next token as a 32-bit number. -/
def takeNumber (tokens : List Token) : Option (Nat × List Token) :=
  match takeWord tokens with
  | (some w, rest) => (Text.readNat? Text.maxWord32 (dropPeriod w)).map (·, rest)
  | (none, _) => none

/-- The upper bound after `TO`, or `first` if no `TO` follows. -/
def takeUpper (first : Nat) : List Token → Option (Nat × List Token)
  | .word w :: rest =>
    if w.map Char.toUpper = ['T', 'O'] then takeNumber rest else some (first, .word w :: rest)
  | tokens => some (first, tokens)

/-- Reads `n` or `m TO n`, each with or without `TIMES`, and returns the upper bound. -/
def takeOccurs (tokens : List Token) : Option (Nat × List Token) :=
  match takeNumber tokens with
  | none => none
  | some (first, rest) =>
    match takeUpper first rest with
    | none => none
    | some (count, rest) => if 0 < count then some (count, skipWord ["TIMES"] rest) else none

theorem length_skipWord_le (keywords : List String) (tokens : List Token) :
    (skipWord keywords tokens).length ≤ tokens.length := by
  unfold skipWord
  split
  · split <;> simp
  · exact Nat.le_refl _

theorem length_takeWord_le (tokens : List Token) :
    (takeWord tokens).2.length ≤ tokens.length := by
  unfold takeWord
  split <;> simp

theorem length_takeLiteral_le (tokens : List Token) :
    (takeLiteral tokens).2.length ≤ tokens.length := by
  unfold takeLiteral
  split <;> simp

theorem length_takeNumber_le {tokens rest : List Token} {n : Nat}
    (h : takeNumber tokens = some (n, rest)) : rest.length ≤ tokens.length := by
  unfold takeNumber at h
  split at h
  · rename_i w after hw
    have := length_takeWord_le tokens
    rw [hw] at this
    obtain ⟨m, -, hm⟩ := Option.map_eq_some_iff.1 h
    simp only [Prod.mk.injEq] at hm
    rw [← hm.2]
    exact this
  · simp at h

theorem length_takeUpper_le {first n : Nat} {tokens rest : List Token}
    (h : takeUpper first tokens = some (n, rest)) : rest.length ≤ tokens.length := by
  unfold takeUpper at h
  split at h
  · split at h
    · have := length_takeNumber_le h
      simp only [List.length_cons]
      omega
    · simp only [Option.some.injEq, Prod.mk.injEq] at h
      exact Nat.le_of_eq (congrArg List.length h.2.symm)
  · simp only [Option.some.injEq, Prod.mk.injEq] at h
    exact Nat.le_of_eq (congrArg List.length h.2.symm)

theorem length_takeOccurs_le {tokens rest : List Token} {n : Nat}
    (h : takeOccurs tokens = some (n, rest)) : rest.length ≤ tokens.length := by
  unfold takeOccurs at h
  split at h
  · simp at h
  · rename_i first rest₁ h₁
    split at h
    · simp at h
    · rename_i count rest₂ h₂
      split at h
      · simp only [Option.some.injEq, Prod.mk.injEq] at h
        have := length_takeNumber_le h₁
        have := length_takeUpper_le h₂
        have := length_skipWord_le ["TIMES"] rest₂
        rw [h.2] at this
        omega
      · simp at h

/-- Reads the clauses from the left, onto those already read. -/
def Clauses.read (cs : Clauses) : List Token → Except ClauseError Clauses
  | [] => .ok cs
  | .literal _ :: rest => cs.read rest
  | .word w :: rest =>
    if keyword w = "REDEFINES" then
      { cs with redefines := (takeWord rest).1.map bare }.read (takeWord rest).2
    else if keyword w = "PIC" ∨ keyword w = "PICTURE" then
      match (takeWord (skipWord ["IS"] rest)).1 with
      | none => .error .missingPicture
      | some p =>
        { cs with picture := some (keyword p) }.read (takeWord (skipWord ["IS"] rest)).2
    else if keyword w = "USAGE" then
      { cs with usage := (takeWord (skipWord ["IS"] rest)).1.map keyword }.read
        (takeWord (skipWord ["IS"] rest)).2
    else if keyword w = "OCCURS" then
      match _h : takeOccurs rest with
      | none => .error .invalidOccurs
      | some (n, after) => { cs with occurs := some n }.read after
    else if keyword w = "VALUE" ∨ keyword w = "VALUES" then
      { cs with value := cs.value.or (takeLiteral (skipWord ["IS", "ARE"] rest)).1 }.read
        (takeLiteral (skipWord ["IS", "ARE"] rest)).2
    else if usageWords.contains (keyword w) then
      { cs with usage := some (keyword w) }.read rest
    else cs.read rest
termination_by tokens => tokens.length
decreasing_by
  · simp
  · have := length_takeWord_le rest
    simp only [List.length_cons]
    omega
  · have := length_takeWord_le (skipWord ["IS"] rest)
    have := length_skipWord_le ["IS"] rest
    simp only [List.length_cons]
    omega
  · have := length_takeWord_le (skipWord ["IS"] rest)
    have := length_skipWord_le ["IS"] rest
    simp only [List.length_cons]
    omega
  · have := length_takeOccurs_le _h
    simp only [List.length_cons]
    omega
  · have := length_takeLiteral_le (skipWord ["IS", "ARE"] rest)
    have := length_skipWord_le ["IS", "ARE"] rest
    simp only [List.length_cons]
    omega
  · simp
  · simp

end DataDivision.Entry
