import DataDivision.Entry.Basic
import DataDivision.Proofs.Checked.Basic
import DataDivision.Proofs.Text.Lines

/-!
Checked access to texts.

The kept part of a line is cut out by byte offsets.  All of these lie between characters, so nothing
is cut inside one (`normalize_eq`), and they are no larger than the line (`keptOffset_add_le`).
-/

namespace DataDivision.Checked

open Text

/-! ## Cutting texts at bytes -/

/-- The text from the given byte on. -/
def sliceFrom : Nat → List Char → Option (List Char)
  | 0, cs => some cs
  | _ + 1, [] => none
  | n + 1, c :: cs => if c.utf8Size ≤ n + 1 then sliceFrom (n + 1 - c.utf8Size) cs else none

/-- The text before the given byte. -/
def sliceTo : Nat → List Char → Option (List Char)
  | 0, _ => some []
  | _ + 1, [] => none
  | n + 1, c :: cs =>
    if c.utf8Size ≤ n + 1 then (sliceTo (n + 1 - c.utf8Size) cs).map (c :: ·) else none

theorem sliceFrom_append (before after : List Char) :
    sliceFrom (byteLength before) (before ++ after) = some after := by
  induction before with
  | nil => rw [byteLength, List.nil_append, sliceFrom]
  | cons c cs ih =>
    obtain ⟨n, hn⟩ : ∃ n, byteLength (c :: cs) = n + 1 :=
      ⟨byteLength (c :: cs) - 1, by have := c.utf8Size_pos; rw [byteLength]; omega⟩
    have hrest : n + 1 - c.utf8Size = byteLength cs := by rw [byteLength] at hn; omega
    have hle : c.utf8Size ≤ n + 1 := by rw [byteLength] at hn; omega
    rw [hn, List.cons_append, sliceFrom, if_pos hle, hrest, ih]

theorem sliceTo_append (before after : List Char) :
    sliceTo (byteLength before) (before ++ after) = some before := by
  induction before with
  | nil => rw [byteLength, List.nil_append, sliceTo]
  | cons c cs ih =>
    obtain ⟨n, hn⟩ : ∃ n, byteLength (c :: cs) = n + 1 :=
      ⟨byteLength (c :: cs) - 1, by have := c.utf8Size_pos; rw [byteLength]; omega⟩
    have hrest : n + 1 - c.utf8Size = byteLength cs := by rw [byteLength] at hn; omega
    have hle : c.utf8Size ≤ n + 1 := by rw [byteLength] at hn; omega
    rw [hn, List.cons_append, sliceTo, if_pos hle, hrest, ih, Option.map_some]

/-! ## The sequence area -/

def bytes (cs : List Char) : List UInt8 := cs.flatMap String.utf8EncodeChar

/-- The first bytes of a text, of which it must have that many. -/
def firstBytes (n : Nat) (cs : List Char) : Option (List UInt8) :=
  if n ≤ (bytes cs).length then some ((bytes cs).take n) else none

def isDigitByte (b : UInt8) : Bool := 48 ≤ b.toNat && b.toNat ≤ 57

def hasSequenceArea (cs : List Char) : Option Bool :=
  if 6 ≤ byteLength cs then (firstBytes 6 cs).map (·.all isDigitByte) else some false

theorem length_bytes (cs : List Char) : (bytes cs).length = byteLength cs := by
  induction cs with
  | nil => rfl
  | cons c cs ih =>
    rw [bytes, List.flatMap_cons, List.length_append, String.length_utf8EncodeChar, byteLength]
    exact congrArg _ ih

/-- A character is a digit if its first byte is one, and then it has no other. -/
theorem bytes_cases (c : Char) :
    (c.isDigit = true ∧ ∃ b, String.utf8EncodeChar c = [b] ∧ isDigitByte b = true) ∨
      c.isDigit = false ∧ ∃ b more, String.utf8EncodeChar c = b :: more ∧ isDigitByte b = false := by
  have hdigit : c.isDigit = (48 ≤ c.val.toNat && c.val.toNat ≤ 57) := by
    rw [Bool.eq_iff_iff]
    simp [Char.isDigit, UInt32.le_iff_toNat_le]
  unfold String.utf8EncodeChar
  dsimp only
  generalize c.val.toNat = v at hdigit ⊢
  split
  · have hb : (UInt8.ofNat v).toNat = v := by simp; omega
    cases hd : c.isDigit with
    | true => exact .inl ⟨rfl, _, rfl, by rw [isDigitByte, hb, ← hdigit, hd]⟩
    | false => exact .inr ⟨rfl, _, _, rfl, by rw [isDigitByte, hb, ← hdigit, hd]⟩
  · have hnone : c.isDigit = false := by
      rw [hdigit]
      simp
      omega
    split
    · exact .inr ⟨hnone, _, _, rfl, by simp [isDigitByte]; omega⟩
    · split <;> exact .inr ⟨hnone, _, _, rfl, by simp [isDigitByte]; omega⟩

/-- The first bytes are digits if and only if the first characters are. -/
theorem all_take_bytes (n : Nat) (cs : List Char) :
    (decide (n ≤ (bytes cs).length) && ((bytes cs).take n).all isDigitByte) =
      (decide (n ≤ cs.length) && (cs.take n).all Char.isDigit) := by
  induction cs generalizing n with
  | nil => simp [bytes]
  | cons c cs ih =>
    cases n with
    | zero => simp
    | succ n =>
      have hcons : bytes (c :: cs) = String.utf8EncodeChar c ++ bytes cs := List.flatMap_cons ..
      obtain ⟨hc, b, hb, hd⟩ | ⟨hc, b, more, hb, hd⟩ := bytes_cases c
      · have hn := ih n
        simp only [hcons, hb, List.singleton_append, List.length_cons, List.take_succ_cons,
          List.all_cons, hc, hd, Bool.true_and, Nat.add_le_add_iff_right]
        exact hn
      · simp [hcons, hb, hc, hd]

theorem hasSequenceArea_eq (cs : List Char) :
    hasSequenceArea cs = some (Entry.hasSequenceArea cs) := by
  have hall := all_take_bytes 6 cs
  unfold hasSequenceArea firstBytes Entry.hasSequenceArea
  rw [← hall, length_bytes]
  split <;> simp [*]

/-! ## The kept part of a line -/

/-- The byte at which the character with the given index starts. -/
def charOffset? : Nat → List Char → Option Nat
  | _, [] => none
  | 0, _ :: _ => some 0
  | n + 1, c :: cs => (charOffset? n cs).map (c.utf8Size + ·)

/-- The byte at which the first comment starts. -/
def commentOffset? : List Char → Option Nat
  | [] => none
  | c :: cs =>
    if c = '*' ∧ cs.head? = some '>' then some 0 else (commentOffset? cs).map (c.utf8Size + ·)

/-- The text before the first comment. -/
def beforeComment (text : List Char) : Option (List Char) :=
  match commentOffset? text with
  | some comment => sliceTo comment text
  | none => some text

/-- The part of a line that is read, and the byte at which it starts. -/
def normalize (line : List Char) : Option (Nat × List Char) := do
  let area ← hasSequenceArea line
  let offset := if area then (charOffset? 7 line).getD (byteLength line) else 0
  let text ← (if area then sliceFrom offset line else some line)
  let text ← beforeComment text
  return (offset, trimEnd text)

theorem getD_charOffset? (n : Nat) (cs : List Char) :
    (charOffset? n cs).getD (byteLength cs) = byteLength (cs.take n) := by
  induction cs generalizing n with
  | nil => simp [charOffset?, byteLength]
  | cons c cs ih =>
    cases n with
    | zero => simp [charOffset?, byteLength]
    | succ n =>
      rw [charOffset?, List.take_succ_cons, byteLength, byteLength, ← ih n]
      cases charOffset? n cs <;> rfl

/-- Comments start between characters. -/
theorem commentOffset?_cases (cs : List Char) :
    (commentOffset? cs = none ∧ Entry.beforeComment cs = cs) ∨
      commentOffset? cs = some (byteLength (Entry.beforeComment cs)) ∧
        Entry.beforeComment cs <+: cs := by
  induction cs with
  | nil => exact .inl ⟨rfl, rfl⟩
  | cons c cs ih =>
    cases cs with
    | nil => exact .inl ⟨by simp [commentOffset?], rfl⟩
    | cons d rest =>
      simp only [commentOffset?, Entry.beforeComment, List.head?_cons, Option.some.injEq] at ih ⊢
      split
      · exact .inr ⟨rfl, List.nil_prefix⟩
      · obtain ⟨ho, hb⟩ | ⟨ho, hb⟩ := ih
        · exact .inl ⟨by rw [ho, Option.map_none], by rw [hb]⟩
        · exact .inr ⟨by rw [ho, Option.map_some, byteLength], (List.cons_prefix_cons).2 ⟨rfl, hb⟩⟩

theorem beforeComment_eq (text : List Char) :
    beforeComment text = some (Entry.beforeComment text) := by
  unfold beforeComment
  obtain ⟨ho, hb⟩ | ⟨ho, more, hb⟩ := commentOffset?_cases text
  · rw [ho, hb]
  · have hslice := sliceTo_append (Entry.beforeComment text) more
    rw [hb] at hslice
    rw [ho]
    exact hslice

/-- The kept part of a line is cut out between characters. -/
theorem normalize_eq (line : List Char) :
    normalize line = some (Entry.keptOffset line, Entry.kept line) := by
  have hfrom : sliceFrom (byteLength (line.take 7)) line = some (line.drop 7) := by
    have hslice := sliceFrom_append (line.take 7) (line.drop 7)
    rwa [List.take_append_drop] at hslice
  unfold normalize Entry.keptOffset Entry.kept Entry.marginOf
  rw [hasSequenceArea_eq]
  cases Entry.hasSequenceArea line with
  | true =>
    simp only [Option.bind_eq_bind, Option.bind_some, ↓reduceIte, getD_charOffset?, hfrom,
      beforeComment_eq]
    rfl
  | false =>
    simp only [Option.bind_eq_bind, Option.bind_some, Bool.false_eq_true, ↓reduceIte,
      beforeComment_eq]
    rfl

/-- The kept part ends inside the line. -/
theorem keptOffset_add_le (line : List Char) :
    Entry.keptOffset line + byteLength (Entry.kept line) ≤ byteLength line := by
  have htrim : byteLength (Entry.kept line) ≤
      byteLength (Entry.beforeComment (line.drop (Entry.marginOf line))) := by
    obtain ⟨blanks, h, -⟩ :=
      trimEnd_append_blanks (Entry.beforeComment (line.drop (Entry.marginOf line)))
    have hlen := congrArg byteLength h
    rw [byteLength_append] at hlen
    rw [Entry.kept]
    omega
  have hcomment : byteLength (Entry.beforeComment (line.drop (Entry.marginOf line))) ≤
      byteLength (line.drop (Entry.marginOf line)) := by
    obtain ⟨-, hb⟩ | ⟨-, hb⟩ := commentOffset?_cases (line.drop (Entry.marginOf line))
    · exact Nat.le_of_eq (congrArg byteLength hb)
    · exact byteLength_mono hb.sublist
  have hline := congrArg byteLength (List.take_append_drop (Entry.marginOf line) line)
  rw [byteLength_append] at hline
  rw [Entry.keptOffset]
  omega

/-- Blanking columns makes no line longer. -/
theorem byteLength_mask_le (columns : Entry.Columns) (line : List Char) :
    byteLength (Entry.mask columns line) ≤ byteLength line := by
  have hmap : ∀ (cs : List Char) (f : Nat → Char → Char),
      (∀ i c, (f i c).utf8Size ≤ c.utf8Size) → byteLength (cs.mapIdx f) ≤ byteLength cs := by
    intro cs
    induction cs with
    | nil => exact fun f _ => Nat.le_refl 0
    | cons c cs ih =>
      intro f hf
      have hc := hf 0 c
      have hrest := ih (fun i => f (i + 1)) fun i => hf (i + 1)
      rw [List.mapIdx_cons, byteLength, byteLength]
      omega
  refine hmap line _ fun i c => ?_
  split
  · exact c.utf8Size_pos
  · exact Nat.le_refl _

end DataDivision.Checked
