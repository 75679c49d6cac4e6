import DataDivision.Text.Blank
import DataDivision.Text.Numeral

/-!
Pictures written out.

`expand` replaces each symbol with a repeat count by that many copies of it.  Whatever is not a
well-formed repeat count stays as it is.
-/

namespace DataDivision.Picture

/-- Reads `(n)` at the front: the count, and what follows. -/
def repeat? : List Char → Option (Nat × List Char)
  | '(' :: inner =>
    match inner.dropWhile (· != ')') with
    | [] => none
    | _ :: after =>
      let digits := inner.takeWhile (· != ')')
      if Text.isDigits digits && Text.digitsValue digits ≤ Text.maxWord64 then
        some (Text.digitsValue digits, after)
      else none
  | _ => none

theorem length_of_repeat? {cs after : List Char} {n : Nat} (h : repeat? cs = some (n, after)) :
    after.length < cs.length := by
  unfold repeat? at h
  split at h
  · rename_i inner
    have hle : (inner.dropWhile (· != ')')).length ≤ inner.length :=
      (List.dropWhile_sublist _).length_le
    split at h
    · simp at h
    · rename_i close rest hd
      rw [hd] at hle
      simp only [List.length_cons] at hle ⊢
      dsimp only at h
      split at h
      · simp only [Option.some.injEq, Prod.mk.injEq] at h
        obtain ⟨-, rfl⟩ := h
        omega
      · simp at h
  · simp at h

/-- The characters of a picture with every repeat written out. -/
def expandChars : List Char → List Char
  | [] => []
  | symbol :: rest =>
    match _h : repeat? rest with
    | some (n, after) => List.replicate n symbol ++ expandChars after
    | none => symbol :: expandChars rest
termination_by cs => cs.length
decreasing_by
  · have := length_of_repeat? _h
    simp only [List.length_cons]
    omega
  · simp

/-- A picture string, trimmed and written out. -/
def expand (text : String) : String := String.ofList (expandChars (Text.trim text.toList))

end DataDivision.Picture
