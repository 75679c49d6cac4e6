import DataDivision.Text.Interval

/-!
White space and trimming.

`isBlank` is the Unicode property `White_Space`.  Texts are cut at blanks by `dropBlanks`,
`trimEnd`, `trim` and `words`, all on lists of characters.
-/

namespace DataDivision.Text

def blankTable : List Nat :=
  [0x0009, 0x000E, 0x0020, 0x0021, 0x0085, 0x0086, 0x00A0, 0x00A1, 0x1680, 0x1681, 0x2000, 0x200B,
   0x2028, 0x202A, 0x202F, 0x2030, 0x205F, 0x2060, 0x3000, 0x3001]

/-- White space of every script. -/
def isBlank (c : Char) : Bool := inside blankTable c.toNat

def dropBlanks (cs : List Char) : List Char := cs.dropWhile isBlank

def trimEnd : List Char → List Char
  | [] => []
  | c :: cs =>
    match trimEnd cs with
    | [] => if isBlank c then [] else [c]
    | rest => c :: rest

def trim (cs : List Char) : List Char := trimEnd (dropBlanks cs)

/-- `trim` on strings. -/
def trimmed (s : String) : String := String.ofList (trim s.toList)

/-- Every character is blank; true of the empty text. -/
def allBlank (cs : List Char) : Bool := cs.all isBlank

/-- The maximal runs of characters that are not blank, in order. -/
def words (cs : List Char) : List (List Char) :=
  match _h : cs.dropWhile isBlank with
  | [] => []
  | c :: rest =>
    (c :: rest.takeWhile (fun d => !isBlank d)) :: words (rest.dropWhile fun d => !isBlank d)
termination_by cs.length
decreasing_by
  have h₁ : (c :: rest).length ≤ cs.length := by
    rw [← _h]; exact (List.dropWhile_sublist _).length_le
  have h₂ : (rest.dropWhile fun d => !isBlank d).length ≤ rest.length :=
    (List.dropWhile_sublist _).length_le
  simp only [List.length_cons] at h₁
  omega

theorem trimEnd_append_blanks (cs : List Char) :
    ∃ blanks, cs = trimEnd cs ++ blanks ∧ blanks.all isBlank = true := by
  induction cs with
  | nil => exact ⟨[], by simp [trimEnd]⟩
  | cons c cs ih =>
    obtain ⟨blanks, hcs, hb⟩ := ih
    cases ht : trimEnd cs with
    | nil =>
      by_cases hc : isBlank c = true
      · refine ⟨c :: cs, by simp [trimEnd, ht, hc], ?_⟩
        rw [ht, List.nil_append] at hcs
        simp [hc, hcs, hb]
      · exact ⟨cs, by simp [trimEnd, ht, hc], by rw [ht, List.nil_append] at hcs; rw [hcs]; exact hb⟩
    | cons d ds =>
      refine ⟨blanks, ?_, hb⟩
      rw [ht] at hcs
      simp only [trimEnd, ht]
      rw [List.cons_append, ← hcs]

end DataDivision.Text
