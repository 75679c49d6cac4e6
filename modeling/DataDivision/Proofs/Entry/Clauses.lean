import DataDivision.Entry.Clause
import DataDivision.Proofs.Entry.Heads
import DataDivision.Proofs.Picture.Symbols

/-!
Clauses as they are written.

Each clause of an entry can be written in several ways (`Clause.IsWritten`).  Whatever the way and
whatever clauses follow, reading it adds what the clause says and stops before the next one
(`exists_read_clause`): no clause takes a word of its neighbour.  So clauses written one after
another are read one after another (`read_clauses`).
-/

namespace DataDivision.Entry

/-! ## Clauses -/

/-- What a clause says. -/
inductive Clause
  | redefines (target : String)
  | picture (text : String)
  | usage (word : String)
  | occurs (count : Nat)
  | value (text : String)
  deriving DecidableEq, Repr

/-- What is said can be said: a data name to redefine, an accepted picture that is one word, a usage
that is one word, and a positive count of 32 bits. -/
def Clause.IsSound : Clause → Prop
  | redefines target => isDataName target.toList = true
  | picture text => (Picture.analyze text).isOk = true ∧
      text.toList.any Text.isBlank = false ∧ text.toList.getLast? ≠ some '.'
  | usage word => word.toList ≠ [] ∧ word.toList.all isNameChar = true ∧
      Text.asciiUpper word ≠ "IS"
  | occurs count => 0 < count ∧ count ≤ Text.maxWord32
  | value _ => True

/-- What has been read, and what a further clause says. -/
def Clauses.saying (cs : Clauses) : Clause → Clauses
  | .redefines target => { cs with redefines := some target }
  | .picture text => { cs with picture := some (Text.asciiUpper text) }
  | .usage word => { cs with usage := some (Text.asciiUpper word) }
  | .occurs count => { cs with occurs := some count }
  | .value text => { cs with value := cs.value.or (some text) }

/-- The keywords that begin a clause. -/
def openers : List String :=
  ["REDEFINES", "PIC", "PICTURE", "USAGE", "OCCURS", "VALUE", "VALUES"] ++ usageWords

/-- The keywords of clauses. -/
def keywords : List String := openers ++ ["IS", "ARE", "TO", "TIMES"]

/-- The word is the keyword, its letters in either case. -/
def Spells (w : List Char) (k : String) : Prop := w.map Char.toUpper = k.toList

/-- One of the keywords, or nothing. -/
inductive IsOptional (ks : List String) : List Item → Prop
  | absent : IsOptional ks []
  | present {w : List Char} {k : String} : k ∈ ks → Spells w k → IsOptional ks [.word w]

/-- The digits write the number, with zeros before it or without. -/
def IsNumeral (digits : List Char) (n : Nat) : Prop :=
  Text.isDigits digits = true ∧ Text.digitsValue digits = n

theorem isNumeral_toDigits (n : Nat) : IsNumeral (Nat.toDigits 10 n) n := by
  refine ⟨?_, ?_⟩
  · have hdigits : ∀ c ∈ Nat.toDigits 10 n, c.isDigit = true := fun _ hc =>
      Nat.isDigit_of_mem_toDigits (by decide) (by decide) hc
    simpa [Text.isDigits] using hdigits
  · have hvalue : Nat.ofDigitChars 10 (Nat.toDigits 10 n) 0 = n :=
      Nat.ofDigitChars_toDigits (by decide) (by decide)
    simpa [Nat.ofDigitChars, Text.digitsValue, Nat.mul_comm] using hvalue

/-- The items that write a clause. -/
inductive Clause.IsWritten : Clause → List Item → Prop
  | redefines {w : List Char} {target : String} : Spells w "REDEFINES" →
    IsWritten (.redefines target) [.word w, .word target.toList]
  | picture {w : List Char} {k text : String} {is : List Item} : k ∈ ["PIC", "PICTURE"] →
    Spells w k → IsOptional ["IS"] is →
    IsWritten (.picture text) (.word w :: (is ++ [.word text.toList]))
  | usage {w : List Char} {word : String} {is : List Item} : Spells w "USAGE" →
    IsOptional ["IS"] is → IsWritten (.usage word) (.word w :: (is ++ [.word word.toList]))
  | bareUsage {k word : String} : k ∈ usageWords → Spells word.toList k →
    IsWritten (.usage word) [.word word.toList]
  | occurs {w digits : List Char} {count : Nat} {times : List Item} : Spells w "OCCURS" →
    IsNumeral digits count → IsOptional ["TIMES"] times →
    IsWritten (.occurs count) (.word w :: .word digits :: times)
  | occursTo {w first upto digits : List Char} {least count : Nat} {times : List Item} :
    Spells w "OCCURS" → IsNumeral first least → least ≤ Text.maxWord32 → Spells upto "TO" →
    IsNumeral digits count → IsOptional ["TIMES"] times →
    IsWritten (.occurs count) (.word w :: .word first :: .word upto :: .word digits :: times)
  | value {w : List Char} {k text : String} {is : List Item} {q : Char} : k ∈ ["VALUE", "VALUES"] →
    Spells w k → IsOptional ["IS", "ARE"] is → Token.isQuote q = true → q ∉ text.toList →
    IsWritten (.value text) (.word w :: (is ++ [.quoted q text.toList]))

/-- Clauses written one after another. -/
inductive AreWritten : List Clause → List Item → Prop
  | nil : AreWritten [] []
  | cons {c : Clause} {clauses : List Clause} {is items : List Item} : c.IsWritten is →
    AreWritten clauses items → AreWritten (c :: clauses) (is ++ items)

/-! ## Written words are plain -/

theorem isNameChar_of_toUpper {c : Char} (h : isNameChar c.toUpper = true) :
    isNameChar c = true := by
  rcases Nat.lt_or_ge c.toNat 128 with hc | hc
  · have hall : ∀ n < 128, isNameChar (Char.ofNat n).toUpper = true →
        isNameChar (Char.ofNat n) = true := by decide +kernel
    exact Text.forall_ascii (P := fun c => isNameChar c.toUpper = true → isNameChar c = true)
      hall hc h
  · rwa [Text.toUpper_eq_self hc] at h

namespace Item

theorem isPlain_of_isNameChar {w : List Char} (hne : w ≠ [])
    (hw : w.all isNameChar = true) : (word w).IsPlain := by
  rw [List.all_eq_true] at hw
  exact ⟨hne, fun c hc => (isWordChar_of_isNameChar (hw c hc)).1, fun h =>
    (isWordChar_of_isNameChar (hw '.' (List.mem_of_getLast? h))).2 rfl⟩

theorem isPlain_of_isDigits {w : List Char} (h : Text.isDigits w = true) : (word w).IsPlain := by
  simp only [Text.isDigits, Bool.and_eq_true, Bool.not_eq_true', List.isEmpty_eq_false_iff,
    List.all_eq_true] at h
  refine isPlain_of_isNameChar h.1 (List.all_eq_true.2 fun c hc => ?_)
  simp [isNameChar, Char.isAlphanum, h.2 c hc]

theorem isPlain_of_isDataName {w : List Char} (h : isDataName w = true) : (word w).IsPlain := by
  simp only [isDataName, Bool.and_eq_true] at h
  refine isPlain_of_isNameChar ?_ h.1
  rintro rfl
  simp at h

theorem isPlain_of_spells {w : List Char} {k : String} (hk : k ∈ keywords) (h : Spells w k) :
    (word w).IsPlain := by
  have hall : ∀ k ∈ keywords, k.toList ≠ [] ∧ k.toList.all isNameChar = true := by
    decide +kernel
  obtain ⟨hne, hchars⟩ := hall k hk
  rw [← h] at hne hchars
  refine isPlain_of_isNameChar (by simpa using hne) (List.all_eq_true.2 fun c hc => ?_)
  exact isNameChar_of_toUpper (List.all_eq_true.1 hchars _ (List.mem_map_of_mem hc))

end Item

theorem Clause.IsSound.exists_shape {text : String} (h : (Clause.picture text).IsSound) :
    ∃ shape, Picture.analyze text = .ok shape := by
  cases hp : Picture.analyze text with
  | error e =>
    have hok := h.1
    rw [hp] at hok
    cases hok
  | ok shape => exact ⟨shape, rfl⟩

theorem Clause.IsSound.isBlank_eq_false {text : String} (h : (Clause.picture text).IsSound) :
    ∀ c ∈ text.toList, Text.isBlank c = false := by
  simpa using h.2.1

/-- An accepted picture without blanks is one word. -/
theorem Clause.IsSound.isPlain_picture {text : String} (h : (Clause.picture text).IsSound) :
    (Item.word text.toList).IsPlain := by
  obtain ⟨shape, hshape⟩ := h.exists_shape
  have hblank := h.isBlank_eq_false
  obtain ⟨hne, hchars⟩ := Picture.chars_of_analyzeChars hshape
  rw [Text.trim_eq_self hblank] at hne hchars
  refine ⟨hne, fun c hc => ?_, h.2.2⟩
  have hquote : Token.isQuote c = false := by
    cases hq : Token.isQuote c with
    | false => rfl
    | true =>
      simp only [Token.isQuote, Bool.or_eq_true, beq_iff_eq] at hq
      have hmem := hchars _ (List.mem_map_of_mem hc)
      rcases hq with rfl | rfl <;> exact absurd hmem (by decide)
  simp [Token.isWordChar, hblank c hc, hquote]

theorem Clause.IsSound.picture_ne_is {text : String} (h : (Clause.picture text).IsSound) :
    Text.asciiUpper text ≠ "IS" := by
  obtain ⟨shape, hshape⟩ := h.exists_shape
  obtain ⟨-, hchars⟩ := Picture.chars_of_analyzeChars hshape
  rw [Text.trim_eq_self h.isBlank_eq_false] at hchars
  intro his
  have hmap : text.toList.map Char.toUpper = ['I', 'S'] := by
    rw [← String.toList_ofList (l := text.toList.map Char.toUpper)]
    exact congrArg String.toList his
  exact absurd (hchars 'I' (by simp [hmap])) (by decide)

theorem IsOptional.isPlain {ks : List String} {is : List Item} (hks : ∀ k ∈ ks, k ∈ keywords)
    (h : IsOptional ks is) : ∀ i ∈ is, i.IsPlain := by
  cases h with
  | absent => simp
  | present hk hw => simpa using Item.isPlain_of_spells (hks _ hk) hw

theorem Clause.IsWritten.isPlain {c : Clause} {is : List Item} (hs : c.IsSound)
    (h : c.IsWritten is) : ∀ i ∈ is, i.IsPlain := by
  cases h with
  | redefines hw =>
    have htarget := Item.isPlain_of_isDataName hs
    simpa using ⟨Item.isPlain_of_spells (by decide) hw, htarget⟩
  | picture hk hw his =>
    have hkeyword : ∀ k ∈ ["PIC", "PICTURE"], k ∈ keywords := by decide
    have hnoise := his.isPlain (by decide)
    simpa [or_imp, forall_and] using
      ⟨Item.isPlain_of_spells (hkeyword _ hk) hw, hnoise, hs.isPlain_picture⟩
  | usage hw his =>
    have hnoise := his.isPlain (by decide)
    have hword := Item.isPlain_of_isNameChar hs.1 hs.2.1
    simpa [or_imp, forall_and] using ⟨Item.isPlain_of_spells (by decide) hw, hnoise, hword⟩
  | bareUsage => simpa using Item.isPlain_of_isNameChar hs.1 hs.2.1
  | occurs hw hdigits htimes =>
    have hnoise := htimes.isPlain (by decide)
    simpa using ⟨Item.isPlain_of_spells (by decide) hw, Item.isPlain_of_isDigits hdigits.1, hnoise⟩
  | occursTo hw hfirst _ hto hdigits htimes =>
    have hnoise := htimes.isPlain (by decide)
    simpa using ⟨Item.isPlain_of_spells (by decide) hw, Item.isPlain_of_isDigits hfirst.1,
      Item.isPlain_of_spells (by decide) hto, Item.isPlain_of_isDigits hdigits.1, hnoise⟩
  | value hk hw his hq hmem =>
    have hkeyword : ∀ k ∈ ["VALUE", "VALUES"], k ∈ keywords := by decide
    have hnoise := his.isPlain (by decide)
    simpa [or_imp, forall_and] using
      ⟨Item.isPlain_of_spells (hkeyword _ hk) hw, hnoise, hq, hmem⟩

theorem AreWritten.isPlain {clauses : List Clause} {items : List Item}
    (hs : ∀ c ∈ clauses, c.IsSound) (h : AreWritten clauses items) : ∀ i ∈ items, i.IsPlain := by
  induction h with
  | nil => simp
  | cons hw _ ih =>
    obtain ⟨hc, hs⟩ := List.forall_mem_cons.1 hs
    intro i hi
    rcases List.mem_append.1 hi with hi | hi
    · exact hw.isPlain hc i hi
    · exact ih hs i hi

/-! ## Looking ahead -/

theorem keyword_eq {v w : List Char} {k : String} (hv : dropPeriod v = w) (hw : Spells w k) :
    keyword v = k := by
  rw [keyword, hv, hw, String.ofList_toList]

theorem spells_asciiUpper (s : String) : Spells s.toList (Text.asciiUpper s) := by
  rw [Spells, Text.asciiUpper, String.toList_ofList]

theorem bare_eq {v : List Char} {s : String} (hv : dropPeriod v = s.toList) : bare v = s := by
  rw [bare, hv, String.ofList_toList]

/-- The next token is none of the keywords. -/
def Avoids (ks : List String) (tokens : List Token) : Prop :=
  ∀ v rest, tokens = .word v :: rest → keyword v ∉ ks

theorem Avoids.mono {ks ks' : List String} {tokens : List Token} (h : Avoids ks tokens)
    (hks : ∀ k ∈ ks', k ∈ ks) : Avoids ks' tokens :=
  fun v rest hv hk => h v rest hv (hks _ hk)

theorem skipWord_of_avoids {ks : List String} {tokens : List Token} (h : Avoids ks tokens) :
    skipWord ks tokens = tokens := by
  unfold skipWord
  split
  · rename_i v rest
    exact if_neg (by simpa using h v rest rfl)
  · rfl

theorem takeUpper_of_avoids {first : Nat} {tokens : List Token} (h : Avoids ["TO"] tokens) :
    takeUpper first tokens = some (first, tokens) := by
  unfold takeUpper
  split
  · rename_i v rest
    refine if_neg fun hto => h v rest rfl ?_
    have hlast : v.getLast? ≠ some '.' := fun hl => by
      have hdot := List.getLast?_map (f := Char.toUpper) (l := v)
      rw [hto, hl] at hdot
      exact absurd hdot (by decide)
    exact List.mem_singleton.2 (keyword_eq (dropPeriod_eq_self hlast) hto)
  · rfl

/-- A word that begins with one of other keywords. -/
theorem Shows.avoids {tokens : List Token} {w : List Char} {items : List Item} {k : String}
    {ks : List String} (hts : Shows tokens (.word w :: items)) (hw : (Item.word w).IsPlain)
    (hk : Spells w k) (hks : k ∉ ks) : Avoids ks tokens := by
  obtain ⟨v, rest, rfl, hv, -, -⟩ := hts.exists_word hw
  rintro v' rest' ⟨⟩
  rwa [keyword_eq hv hk]

theorem Clause.IsWritten.exists_opener {c : Clause} {is : List Item} (h : c.IsWritten is) :
    ∃ w k rest, is = .word w :: rest ∧ k ∈ openers ∧ Spells w k := by
  cases h with
  | redefines hw => exact ⟨_, _, _, rfl, by decide, hw⟩
  | picture hk hw =>
    have hopener : ∀ k ∈ ["PIC", "PICTURE"], k ∈ openers := by decide
    exact ⟨_, _, _, rfl, hopener _ hk, hw⟩
  | usage hw => exact ⟨_, _, _, rfl, by decide, hw⟩
  | bareUsage hk hw => exact ⟨_, _, _, rfl, List.mem_append_right _ hk, hw⟩
  | occurs hw => exact ⟨_, _, _, rfl, by decide, hw⟩
  | occursTo hw => exact ⟨_, _, _, rfl, by decide, hw⟩
  | value hk hw =>
    have hopener : ∀ k ∈ ["VALUE", "VALUES"], k ∈ openers := by decide
    exact ⟨_, _, _, rfl, hopener _ hk, hw⟩

/-- Neither a further clause nor the final period goes on with a count. -/
theorem AreWritten.avoids {clauses : List Clause} {items : List Item} {tokens : List Token}
    (h : AreWritten clauses items) (hts : Shows tokens items) : Avoids ["TO", "TIMES"] tokens := by
  cases h with
  | nil =>
    cases hts with
    | done => intro v rest hv; cases hv
    | period => rintro v rest ⟨⟩; decide
  | cons hw _ =>
    obtain ⟨w, k, rest, rfl, hk, hw⟩ := hw.exists_opener
    have hopeners : ∀ k ∈ openers, k ∉ ["TO", "TIMES"] := by decide
    exact hts.avoids (Item.isPlain_of_spells (List.mem_append_left _ hk) hw) hw (hopeners k hk)

/-! ## Reading one clause -/

section

variable (cs : Clauses) {w : List Char} {rest : List Token}

theorem read_redefines (hw : keyword w = "REDEFINES") : cs.read (.word w :: rest) =
    { cs with redefines := (takeWord rest).1.map bare }.read (takeWord rest).2 := by
  rw [Clauses.read, if_pos hw]

theorem read_picture (hw : keyword w ∈ ["PIC", "PICTURE"]) : cs.read (.word w :: rest) =
    match (takeWord (skipWord ["IS"] rest)).1 with
    | none => .error .missingPicture
    | some p => { cs with picture := some (keyword p) }.read
        (takeWord (skipWord ["IS"] rest)).2 := by
  have hne : keyword w ≠ "REDEFINES" := fun h => absurd (h ▸ hw) (by decide)
  rw [Clauses.read, if_neg hne]
  exact if_pos (by simpa using hw)

theorem read_usage (hw : keyword w = "USAGE") : cs.read (.word w :: rest) =
    { cs with usage := (takeWord (skipWord ["IS"] rest)).1.map keyword }.read
      (takeWord (skipWord ["IS"] rest)).2 := by
  simp [Clauses.read, hw]

theorem read_occurs {count : Nat} {after : List Token} (hw : keyword w = "OCCURS")
    (hrest : takeOccurs rest = some (count, after)) :
    cs.read (.word w :: rest) = (cs.saying (.occurs count)).read after := by
  rw [Clauses.read]
  simp only [hw, String.reduceEq, or_self, if_false, if_true]
  split
  · rename_i hnone
    rw [hrest] at hnone
    cases hnone
  · rename_i hsome
    rw [hrest] at hsome
    cases hsome
    rfl

theorem read_occurs_none (hw : keyword w = "OCCURS") (hrest : takeOccurs rest = none) :
    cs.read (.word w :: rest) = .error .invalidOccurs := by
  rw [Clauses.read]
  simp only [hw, String.reduceEq, or_self, if_false, if_true]
  split
  · rfl
  · rename_i hsome
    rw [hrest] at hsome
    cases hsome

theorem read_value (hw : keyword w ∈ ["VALUE", "VALUES"]) : cs.read (.word w :: rest) =
    { cs with value := cs.value.or (takeLiteral (skipWord ["IS", "ARE"] rest)).1 }.read
      (takeLiteral (skipWord ["IS", "ARE"] rest)).2 := by
  simp only [List.mem_cons, List.not_mem_nil, or_false] at hw
  rcases hw with hw | hw <;> simp [Clauses.read, hw]

theorem read_bareUsage (hw : keyword w ∈ usageWords) : cs.read (.word w :: rest) =
    { cs with usage := some (keyword w) }.read rest := by
  have hother : ∀ k ∈ usageWords,
      k ∉ ["REDEFINES", "PIC", "PICTURE", "USAGE", "OCCURS", "VALUE", "VALUES"] := by decide
  have hne := hother _ hw
  simp only [List.mem_cons, List.not_mem_nil, or_false, not_or] at hne
  simp [Clauses.read, hne, hw]

/-- A word that begins no clause is passed over. -/
theorem read_other (hw : keyword w ∉ openers) : cs.read (.word w :: rest) = cs.read rest := by
  simp only [openers, List.mem_append, List.mem_cons, List.not_mem_nil, or_false, not_or] at hw
  simp [Clauses.read, hw]

end

/-- The first token of a written keyword. -/
theorem Shows.exists_keyword {tokens : List Token} {w : List Char} {items : List Item} {k : String}
    (hk : k ∈ keywords) (hw : Spells w k) (hts : Shows tokens (.word w :: items)) :
    ∃ v rest, tokens = .word v :: rest ∧ keyword v = k ∧ Shows rest items := by
  obtain ⟨v, rest, rfl, hv, -, hrest⟩ := hts.exists_word (Item.isPlain_of_spells hk hw)
  exact ⟨v, rest, rfl, keyword_eq hv hw, hrest⟩

/-- A word that may be missing is passed over, and nothing else is. -/
theorem Shows.skipWord {ks : List String} {is items : List Item} {tokens : List Token}
    (hks : ∀ k ∈ ks, k ∈ keywords) (his : IsOptional ks is) (hts : Shows tokens (is ++ items))
    (havoids : ∀ tokens, Shows tokens items → Avoids ks tokens) :
    Shows (skipWord ks tokens) items := by
  cases his with
  | absent => rwa [skipWord_of_avoids (havoids _ hts)]
  | present hk hw =>
    obtain ⟨v, rest, rfl, hv, hrest⟩ := hts.exists_keyword (hks _ hk) hw
    have hcontains : ks.contains (keyword v) = true := List.contains_iff_mem.2 (hv ▸ hk)
    rwa [Entry.skipWord, if_pos hcontains]

section

variable (cs : Clauses) {w : List Char} {k : String} {tokens : List Token} {is items : List Item}

theorem exists_read_redefines {target : String} (hs : (Clause.redefines target).IsSound)
    (hw : Spells w "REDEFINES")
    (hts : Shows tokens (.word w :: .word target.toList :: items)) :
    ∃ rest, Shows rest items ∧ cs.read tokens = (cs.saying (.redefines target)).read rest := by
  obtain ⟨v, rest, rfl, hv, hrest⟩ := hts.exists_keyword (by decide) hw
  obtain ⟨n, rest, rfl, hn, -, hrest⟩ := hrest.exists_word (Item.isPlain_of_isDataName hs)
  refine ⟨rest, hrest, ?_⟩
  rw [read_redefines cs hv]
  simp [takeWord, bare_eq hn, Clauses.saying]

theorem exists_read_picture {text : String} (hs : (Clause.picture text).IsSound)
    (hk : k ∈ ["PIC", "PICTURE"]) (hw : Spells w k) (his : IsOptional ["IS"] is)
    (hts : Shows tokens (.word w :: (is ++ .word text.toList :: items))) :
    ∃ rest, Shows rest items ∧ cs.read tokens = (cs.saying (.picture text)).read rest := by
  have hkeyword : ∀ k ∈ ["PIC", "PICTURE"], k ∈ keywords := by decide
  obtain ⟨v, rest, rfl, rfl, hrest⟩ := hts.exists_keyword (hkeyword k hk) hw
  have hskip := hrest.skipWord (by decide) his fun _ h =>
    h.avoids hs.isPlain_picture (spells_asciiUpper text) (by simpa using hs.picture_ne_is)
  obtain ⟨p, rest, hp, hptext, -, hrest⟩ := hskip.exists_word hs.isPlain_picture
  refine ⟨rest, hrest, ?_⟩
  rw [read_picture cs hk, hp]
  simp [takeWord, keyword_eq hptext (spells_asciiUpper text), Clauses.saying]

theorem exists_read_usage {word : String} (hs : (Clause.usage word).IsSound)
    (hw : Spells w "USAGE") (his : IsOptional ["IS"] is)
    (hts : Shows tokens (.word w :: (is ++ .word word.toList :: items))) :
    ∃ rest, Shows rest items ∧ cs.read tokens = (cs.saying (.usage word)).read rest := by
  have hplain := Item.isPlain_of_isNameChar hs.1 hs.2.1
  obtain ⟨v, rest, rfl, hv, hrest⟩ := hts.exists_keyword (by decide) hw
  have hskip := hrest.skipWord (by decide) his fun _ h =>
    h.avoids hplain (spells_asciiUpper word) (by simpa using hs.2.2)
  obtain ⟨u, rest, hu, huword, -, hrest⟩ := hskip.exists_word hplain
  refine ⟨rest, hrest, ?_⟩
  rw [read_usage cs hv, hu]
  simp [takeWord, keyword_eq huword (spells_asciiUpper word), Clauses.saying]

theorem exists_read_bareUsage {word : String} (hk : k ∈ usageWords) (hw : Spells word.toList k)
    (hts : Shows tokens (.word word.toList :: items)) :
    ∃ rest, Shows rest items ∧ cs.read tokens = (cs.saying (.usage word)).read rest := by
  obtain ⟨v, rest, rfl, rfl, hrest⟩ := hts.exists_keyword (by simp [keywords, openers, hk]) hw
  refine ⟨rest, hrest, ?_⟩
  have hupper : Text.asciiUpper word = keyword v := by
    rw [Text.asciiUpper, hw, String.ofList_toList]
  rw [read_bareUsage cs hk, Clauses.saying, hupper]

theorem readNat?_of_isNumeral {digits : List Char} {n : Nat} (h : IsNumeral digits n)
    (hn : n ≤ Text.maxWord32) : Text.readNat? Text.maxWord32 digits = some n := by
  obtain ⟨hdigits, rfl⟩ := h
  have hplus : ∀ rest, digits ≠ '+' :: rest := by
    rintro rest rfl
    simp [Text.isDigits] at hdigits
  unfold Text.readNat?
  split
  · exact absurd rfl (hplus _)
  · simp [hdigits, hn]

theorem takeNumber_eq {v digits : List Char} {n : Nat} (rest : List Token)
    (hv : dropPeriod v = digits) (hn : IsNumeral digits n) (hle : n ≤ Text.maxWord32) :
    takeNumber (.word v :: rest) = some (n, rest) := by
  simp [takeNumber, takeWord, hv, readNat?_of_isNumeral hn hle]

/-- A count is read, and the optional word behind it, and not more. -/
theorem exists_takeNumber {digits : List Char} {count : Nat} {times : List Item}
    (hcount : count ≤ Text.maxWord32) (hdigits : IsNumeral digits count)
    (htimes : IsOptional ["TIMES"] times) (hts : Shows tokens (.word digits :: (times ++ items)))
    (havoids : ∀ tokens, Shows tokens items → Avoids ["TO", "TIMES"] tokens) :
    ∃ rest, takeNumber tokens = some (count, rest) ∧ Avoids ["TO"] rest ∧
      Shows (skipWord ["TIMES"] rest) items := by
  obtain ⟨v, rest, rfl, hv, -, hrest⟩ := hts.exists_word (Item.isPlain_of_isDigits hdigits.1)
  refine ⟨rest, takeNumber_eq rest hv hdigits hcount, ?_, hrest.skipWord (by decide) htimes
    fun tokens h => (havoids tokens h).mono (by decide)⟩
  cases htimes with
  | absent => exact (havoids _ hrest).mono (by decide)
  | present hk hw =>
    obtain rfl := List.mem_singleton.1 hk
    exact hrest.avoids (Item.isPlain_of_spells (by decide) hw) hw (by decide)

theorem exists_read_occurs {digits : List Char} {count : Nat} {times : List Item}
    (hs : (Clause.occurs count).IsSound) (hw : Spells w "OCCURS")
    (hdigits : IsNumeral digits count) (htimes : IsOptional ["TIMES"] times)
    (hts : Shows tokens (.word w :: .word digits :: (times ++ items)))
    (havoids : ∀ tokens, Shows tokens items → Avoids ["TO", "TIMES"] tokens) :
    ∃ rest, Shows rest items ∧ cs.read tokens = (cs.saying (.occurs count)).read rest := by
  obtain ⟨v, rest, rfl, hv, hrest⟩ := hts.exists_keyword (by decide) hw
  obtain ⟨rest, hnumber, hto, hrest⟩ := exists_takeNumber hs.2 hdigits htimes hrest havoids
  refine ⟨_, hrest, read_occurs cs hv ?_⟩
  simp [takeOccurs, hnumber, takeUpper_of_avoids hto, hs.1]

theorem exists_read_occursTo {first upto digits : List Char} {least count : Nat}
    {times : List Item} (hs : (Clause.occurs count).IsSound) (hw : Spells w "OCCURS")
    (hfirst : IsNumeral first least) (hleast : least ≤ Text.maxWord32) (hto : Spells upto "TO")
    (hdigits : IsNumeral digits count) (htimes : IsOptional ["TIMES"] times)
    (hts : Shows tokens (.word w :: .word first :: .word upto :: .word digits :: (times ++ items)))
    (havoids : ∀ tokens, Shows tokens items → Avoids ["TO", "TIMES"] tokens) :
    ∃ rest, Shows rest items ∧ cs.read tokens = (cs.saying (.occurs count)).read rest := by
  obtain ⟨v, rest, rfl, hv, hrest⟩ := hts.exists_keyword (by decide) hw
  obtain ⟨m, rest, rfl, hm, -, hrest⟩ := hrest.exists_word (Item.isPlain_of_isDigits hfirst.1)
  obtain ⟨t, rest, rfl, -, ht, hrest⟩ :=
    hrest.exists_word (Item.isPlain_of_spells (by decide) hto)
  -- the upper bound follows, so no period is at the end of this word
  have hupper : t.map Char.toUpper = ['T', 'O'] := by rw [ht (by simp)]; exact hto
  obtain ⟨after, hnumber, -, hafter⟩ := exists_takeNumber hs.2 hdigits htimes hrest havoids
  refine ⟨_, hafter, read_occurs cs hv ?_⟩
  simp [takeOccurs, takeNumber_eq _ hm hfirst hleast, takeUpper, hupper, hnumber, hs.1]

theorem exists_read_value {text : String} {q : Char} (hk : k ∈ ["VALUE", "VALUES"])
    (hw : Spells w k) (his : IsOptional ["IS", "ARE"] is)
    (hts : Shows tokens (.word w :: (is ++ .quoted q text.toList :: items))) :
    ∃ rest, Shows rest items ∧ cs.read tokens = (cs.saying (.value text)).read rest := by
  have hkeyword : ∀ k ∈ ["VALUE", "VALUES"], k ∈ keywords := by decide
  obtain ⟨v, rest, rfl, rfl, hrest⟩ := hts.exists_keyword (hkeyword k hk) hw
  have hskip := hrest.skipWord (by decide) his fun _ h => by
    obtain ⟨rest, rfl, -⟩ := h.exists_quoted
    rintro v rest ⟨⟩
  obtain ⟨rest, ht, hrest⟩ := hskip.exists_quoted
  refine ⟨rest, hrest, ?_⟩
  rw [read_value cs hk, ht]
  simp [takeLiteral, Clauses.saying]

/-- Reading a written clause adds what it says and stops before what follows. -/
theorem exists_read_clause {c : Clause} (hs : c.IsSound) (hw : c.IsWritten is)
    (hts : Shows tokens (is ++ items))
    (havoids : ∀ tokens, Shows tokens items → Avoids ["TO", "TIMES"] tokens) :
    ∃ rest, Shows rest items ∧ cs.read tokens = (cs.saying c).read rest := by
  cases hw with
  | redefines hw => exact exists_read_redefines cs hs hw hts
  | picture hk hw his => exact exists_read_picture cs hs hk hw his (by simpa using hts)
  | usage hw his => exact exists_read_usage cs hs hw his (by simpa using hts)
  | bareUsage hk hw => exact exists_read_bareUsage cs hk hw hts
  | occurs hw hdigits htimes => exact exists_read_occurs cs hs hw hdigits htimes hts havoids
  | occursTo hw hfirst hleast hto hdigits htimes =>
    exact exists_read_occursTo cs hs hw hfirst hleast hto hdigits htimes hts havoids
  | value hk hw his => exact exists_read_value cs hk hw his (by simpa using hts)

theorem read_period : cs.read [.word ['.']] = .ok cs := by
  have hperiod : keyword ['.'] = "" := by decide
  have husage : "" ∉ usageWords := by decide
  simp [Clauses.read, hperiod, husage]

end

/-- Clauses written one after another, with a period behind them or not, are read one after
another. -/
theorem read_clauses {clauses : List Clause} {items : List Item} {tokens : List Token}
    (cs : Clauses) (hs : ∀ c ∈ clauses, c.IsSound) (hw : AreWritten clauses items)
    (hts : Shows tokens items) : cs.read tokens = .ok (clauses.foldl Clauses.saying cs) := by
  induction hw generalizing cs tokens with
  | nil =>
    cases hts with
    | done => rw [Clauses.read]; rfl
    | period => exact read_period cs
  | cons hw hmore ih =>
    obtain ⟨hc, hs⟩ := List.forall_mem_cons.1 hs
    obtain ⟨rest, hrest, hread⟩ := exists_read_clause cs hc hw hts fun _ => hmore.avoids
    rw [hread, ih _ hs hrest, List.foldl_cons]

end DataDivision.Entry
