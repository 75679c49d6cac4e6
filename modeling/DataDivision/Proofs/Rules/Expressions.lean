import DataDivision.Rules.Conditional
import DataDivision.Proofs.Text.Words

/-!
Conditional expressions as they are written.

`IsExpression c words` says that the words, one after another, write the conditional `c`, and
`Spaced words text` that the text holds these words with blanks around them, no two of them grown
together.  Every conditional that has a branch, and labels that are labels, is written by some
expression (`exists_isExpression`).
-/

namespace DataDivision.Rules

namespace Conditional

/-! ## Characters of labels -/

theorem isLabelChar_toLower (c : Char) : isLabelChar c.toLower = isLabelChar c := by
  rcases Nat.lt_or_ge c.toNat 128 with hc | hc
  · exact Text.forall_ascii (P := fun c => isLabelChar c.toLower = isLabelChar c)
      (by decide +kernel) hc
  · rw [Text.toLower_eq_self hc]

theorem isBlank_of_isLabelChar {c : Char} (h : isLabelChar c = true) : Text.isBlank c = false := by
  simp only [isLabelChar, Bool.or_eq_true, beq_iff_eq] at h
  rcases h with (h | rfl) | rfl
  · exact Text.isBlank_of_isAlphanumeric h
  · decide
  · decide

/-! ## How an expression is written -/

/-- The word in any case of ASCII. -/
def Spells (keyword : String) (word : List Char) : Prop :=
  word.map Char.toLower = keyword.toList

instance (keyword : String) (word : List Char) : Decidable (Spells keyword word) :=
  inferInstanceAs (Decidable (_ = _))

/-- A label of a branch: characters of labels, and neither `else` nor `if`. -/
structure IsLabel (label : String) : Prop where
  ne_nil : label.toList ≠ []
  all_chars : label.toList.all isLabelChar = true
  not_else : ¬ Spells "else" label.toList
  not_if : ¬ Spells "if" label.toList

/-- The words for the character that is tested. -/
inductive IsSubject : List Char → Prop where
  | braces : IsSubject "\x7bchar\x7d".toList
  | word {w : List Char} : Spells "char" w → IsSubject w

/-- The beginning of a branch. -/
inductive IsOpening : List (List Char) → Prop where
  | plain {s : List Char} : IsSubject s → IsOpening [s]
  | marked {w s : List Char} : Spells "if" w → IsSubject s → IsOpening [w, s]

/-- The words between a test and its label. -/
inductive IsArrow : List Char → Prop where
  | word {w : List Char} : Spells "then" w → IsArrow w
  | dash : IsArrow "->".toList
  | mark : IsArrow "?".toList

/-- The end of a branch: a label is led to by an arrow, and an arrow may lead to no label. -/
inductive IsTarget : Option String → List (List Char) → Prop where
  | nothing : IsTarget none []
  | arrow {a : List Char} : IsArrow a → IsTarget none [a]
  | label {a : List Char} {l : String} : IsArrow a → IsLabel l → IsTarget (some l) [a, l.toList]

/-- A branch: opening, `==`, the character in quotes of one kind, target. -/
inductive IsBranch : Char × Option String → List (List Char) → Prop where
  | mk {c q : Char} {label : Option String} {opening target : List (List Char)} :
      IsOpening opening → (q = '\'' ∨ q = '"') → IsTarget label target →
      IsBranch (c, label) (opening ++ "==".toList :: [q, c, q] :: target)

/-- The words between two branches. -/
inductive IsSeparator : List Char → Prop where
  | word {w : List Char} : Spells "else" w → IsSeparator w
  | divider {d : Char} : isDivider d = true → IsSeparator [d]

/-- Branches after the first, each behind a separator. -/
inductive IsMore : List (Char × Option String) → List (List Char) → Prop where
  | nil : IsMore [] []
  | cons {b : Char × Option String} {bs : List (Char × Option String)} {s : List Char}
      {branch rest : List (List Char)} :
      IsSeparator s → IsBranch b branch → IsMore bs rest → IsMore (b :: bs) (s :: (branch ++ rest))

/-- The label for all other characters. -/
inductive IsFinal : Option String → List (List Char) → Prop where
  | nothing : IsFinal none []
  | plain {w : List Char} {l : String} : Spells "else" w → IsLabel l →
      IsFinal (some l) [w, l.toList]
  | divided {d : Char} {w : List Char} {l : String} : isDivider d = true → Spells "else" w →
      IsLabel l → IsFinal (some l) [[d], w, l.toList]

/-- A whole expression. -/
inductive IsExpression : Conditional → List (List Char) → Prop where
  | mk {b : Char × Option String} {bs : List (Char × Option String)} {label : Option String}
      {first more final : List (List Char)} :
      IsBranch b first → IsMore bs more → IsFinal label final →
      IsExpression ⟨b :: bs, label⟩ (first ++ (more ++ final))

/-- Next to each other the two stay two words: no character of a label meets another. -/
def Apart (word text : List Char) : Prop :=
  (word.getLast?.any isLabelChar && text.head?.any isLabelChar) = false

instance (word text : List Char) : Decidable (Apart word text) :=
  inferInstanceAs (Decidable (_ = _))

/-- The text holds the words in order, with nothing but blanks around them. -/
inductive Spaced : List (List Char) → List Char → Prop where
  | nil {gap : List Char} : Text.allBlank gap = true → Spaced [] gap
  | cons {gap word text : List Char} {words : List (List Char)} : Text.allBlank gap = true →
      Apart word text → Spaced words text → Spaced (word :: words) (gap ++ (word ++ text))

/-! ## Words -/

theorem Spells.exists_cons {first : Char} {others : List Char} {keyword : String} {w : List Char}
    (h : Spells keyword w) (hk : keyword.toList = first :: others) :
    ∃ c cs, w = c :: cs ∧ c.toLower = first := by
  rw [Spells, hk] at h
  obtain ⟨c, cs, rfl, hc, -⟩ := List.map_eq_cons_iff.1 h
  exact ⟨c, cs, rfl, hc⟩

/-- The characters of a keyword are characters of labels in any case. -/
theorem Spells.isLabelChar {keyword : String} {w : List Char} (h : Spells keyword w)
    (hk : keyword.toList.all Conditional.isLabelChar = true) :
    ∀ c ∈ w, Conditional.isLabelChar c = true := by
  intro c hc
  have hlower : c.toLower ∈ keyword.toList := h ▸ List.mem_map_of_mem hc
  rw [← isLabelChar_toLower]
  exact List.all_eq_true.1 hk _ hlower

/-- A word is there and does not begin with a blank. -/
def IsSolid (word : List Char) : Prop :=
  ∃ c cs, word = c :: cs ∧ Text.isBlank c = false

theorem isSolid_of_isLabelChar {word : List Char} (hne : word ≠ [])
    (h : ∀ c ∈ word, isLabelChar c = true) : IsSolid word := by
  obtain ⟨c, cs, rfl⟩ := List.exists_cons_of_ne_nil hne
  exact ⟨c, cs, rfl, isBlank_of_isLabelChar (h c List.mem_cons_self)⟩

theorem Spells.isSolid {keyword : String} {w : List Char} (h : Spells keyword w)
    (hne : keyword.toList ≠ []) (hk : keyword.toList.all Conditional.isLabelChar = true) :
    IsSolid w := by
  refine isSolid_of_isLabelChar ?_ (h.isLabelChar hk)
  rintro rfl
  exact hne h.symm

theorem IsLabel.isSolid {l : String} (h : IsLabel l) : IsSolid l.toList :=
  isSolid_of_isLabelChar h.ne_nil (List.all_eq_true.1 h.all_chars)

theorem IsSubject.isSolid {s : List Char} (h : IsSubject s) : IsSolid s := by
  cases h with
  | braces => exact ⟨_, _, rfl, by decide⟩
  | word h => exact h.isSolid (by decide) (by decide +kernel)

theorem IsArrow.isSolid {a : List Char} (h : IsArrow a) : IsSolid a := by
  cases h with
  | word h => exact h.isSolid (by decide) (by decide +kernel)
  | dash => exact ⟨_, _, rfl, by decide⟩
  | mark => exact ⟨_, _, rfl, by decide⟩

theorem cases_divider {d : Char} (h : isDivider d = true) : d = ';' ∨ d = ',' ∨ d = ':' := by
  simpa [isDivider, or_assoc] using h

theorem isSolid_divider {d : Char} (h : isDivider d = true) : IsSolid [d] := by
  rcases cases_divider h with rfl | rfl | rfl <;> exact ⟨_, _, rfl, by decide⟩

theorem isSolid_quote {q : Char} (h : q = '\'' ∨ q = '"') (c : Char) : IsSolid [q, c, q] := by
  rcases h with rfl | rfl <;> exact ⟨_, _, rfl, by decide⟩

/-- The first word of a text stands behind its blanks. -/
theorem Spaced.exists_text {word text : List Char} {words : List (List Char)}
    (h : Spaced (word :: words) text) (hw : IsSolid word) :
    ∃ rest, Text.dropBlanks text = word ++ rest ∧ Apart word rest ∧ Spaced words rest := by
  obtain ⟨c, cs, rfl, hc⟩ := hw
  cases h with
  | cons hgap hapart hrest =>
    refine ⟨_, ?_, hapart, hrest⟩
    rw [Text.dropBlanks_append hgap, List.cons_append, Text.dropBlanks_eq_self hc]

theorem Spaced.dropBlanks_nil {text : List Char} (h : Spaced [] text) :
    Text.dropBlanks text = [] := by
  cases h with
  | nil hgap => exact Text.dropBlanks_eq_nil_iff.2 hgap

/-- A text holds no character but those of its words and blanks. -/
theorem Spaced.not_mem {words : List (List Char)} {text : List Char} {c : Char}
    (h : Spaced words text) (hc : Text.isBlank c = false) (hw : ∀ w ∈ words, c ∉ w) :
    c ∉ text := by
  have hblank : ∀ gap : List Char, Text.allBlank gap = true → c ∉ gap := by
    intro gap hgap hmem
    rw [List.all_eq_true.1 hgap c hmem] at hc
    cases hc
  induction h with
  | nil hgap => exact hblank _ hgap
  | cons hgap _ _ ih =>
    have hword := hw _ List.mem_cons_self
    have hrest := ih fun w hm => hw w (List.mem_cons_of_mem _ hm)
    simp [hblank _ hgap, hword, hrest]

/-! ## Finding the words -/

/-- Finds the words in the text, each behind blanks. -/
def isSpaced : List (List Char) → List Char → Bool
  | [], text => Text.allBlank text
  | word :: words, text =>
    match afterExact? word (Text.dropBlanks text) with
    | some rest => decide (Apart word rest) && isSpaced words rest
    | none => false

theorem afterExact?_eq_some_iff {word cs rest : List Char} :
    afterExact? word cs = some rest ↔ cs = word ++ rest := by
  induction word generalizing cs with
  | nil => simp [afterExact?]
  | cons w ws ih =>
    cases cs with
    | nil => simp [afterExact?]
    | cons c cs =>
      by_cases h : w = c
      · simp [afterExact?, h, ih]
      · simp [afterExact?, h, Ne.symm h]

theorem spaced_of_isSpaced {words : List (List Char)} {text : List Char}
    (h : isSpaced words text = true) : Spaced words text := by
  induction words generalizing text with
  | nil => exact .nil h
  | cons word words ih =>
    rw [isSpaced] at h
    split at h
    · rename_i rest hrest
      rw [Bool.and_eq_true, decide_eq_true_eq] at h
      have htext : text = text.takeWhile Text.isBlank ++ (word ++ rest) := by
        rw [← afterExact?_eq_some_iff.1 hrest, Text.dropBlanks, List.takeWhile_append_dropWhile]
      rw [htext]
      exact .cons List.all_takeWhile h.1 (ih h.2)
    · cases h

/-! ## Every conditional is written -/

theorem exists_isBranch {b : Char × Option String} (h : ∀ l ∈ b.2, IsLabel l) :
    ∃ words, IsBranch b words := by
  have htarget : ∃ target, IsTarget b.2 target := by
    cases hl : b.2 with
    | none => exact ⟨_, .nothing⟩
    | some l => exact ⟨_, .label .dash (h l hl)⟩
  obtain ⟨target, htarget⟩ := htarget
  exact ⟨_, .mk (.plain .braces) (.inl rfl) htarget⟩

theorem exists_isMore {bs : List (Char × Option String)} (h : ∀ b ∈ bs, ∀ l ∈ b.2, IsLabel l) :
    ∃ words, IsMore bs words := by
  induction bs with
  | nil => exact ⟨_, .nil⟩
  | cons b bs ih =>
    obtain ⟨branch, hb⟩ := exists_isBranch (h b List.mem_cons_self)
    obtain ⟨rest, hm⟩ := ih fun b hb => h b (List.mem_cons_of_mem _ hb)
    exact ⟨_, .cons (.divider (d := ';') rfl) hb hm⟩

/-- Blanks between all words are always enough. -/
theorem spaced_flatMap (words : List (List Char)) : Spaced words (words.flatMap (' ' :: ·)) := by
  induction words with
  | nil => exact .nil rfl
  | cons word words ih =>
    show Spaced (word :: words) ([' '] ++ (word ++ words.flatMap (' ' :: ·)))
    refine .cons rfl ?_ ih
    have hblank : isLabelChar ' ' = false := by decide +kernel
    cases words <;> simp [Apart, hblank]

/-- Every conditional with a branch, whose labels are labels, has an expression. -/
theorem exists_isExpression {c : Conditional} (hne : c.branches ≠ [])
    (hbranches : ∀ b ∈ c.branches, ∀ l ∈ b.2, IsLabel l) (hlast : ∀ l ∈ c.otherwise, IsLabel l) :
    ∃ words text, IsExpression c words ∧ Spaced words text := by
  obtain ⟨branches, otherwise⟩ := c
  obtain ⟨b, bs, rfl⟩ := List.exists_cons_of_ne_nil hne
  obtain ⟨first, hfirst⟩ := exists_isBranch (hbranches b List.mem_cons_self)
  obtain ⟨more, hmore⟩ := exists_isMore fun b hb => hbranches b (List.mem_cons_of_mem _ hb)
  have hfinal : ∃ final, IsFinal otherwise final := by
    cases otherwise with
    | none => exact ⟨_, .nothing⟩
    | some l => exact ⟨_, .plain (w := "else".toList) rfl (hlast l rfl)⟩
  obtain ⟨final, hfinal⟩ := hfinal
  exact ⟨_, _, .mk hfirst hmore hfinal, spaced_flatMap _⟩

end Conditional

end DataDivision.Rules
