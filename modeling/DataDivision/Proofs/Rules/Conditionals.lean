import DataDivision.Proofs.Rules.Expressions

/-!
Conditional expressions and their readings.

A text that writes a conditional is read as that conditional (`parse?_of_isExpression`).  Keywords
are taken as they come, so what has to be shown is that none is taken for another word: an `else`
before a branch for one before the last label, or a label for a keyword that it begins with.
-/

namespace DataDivision.Rules

namespace Conditional

/-! ## Reading a word -/

theorem afterWord?_eq_some_iff {word cs rest : List Char} :
    afterWord? word cs = some rest ↔
      ∃ used, used.map Char.toLower = word.map Char.toLower ∧ cs = used ++ rest := by
  induction word generalizing cs with
  | nil => simp [afterWord?]
  | cons w ws ih =>
    cases cs with
    | nil =>
      simp only [afterWord?, List.map_cons, reduceCtorEq, false_iff, not_exists, not_and]
      intro used hused hnil
      rw [List.nil_eq_append_iff.1 hnil |>.1] at hused
      cases hused
    | cons c cs =>
      rw [afterWord?]
      split
      · rename_i h
        rw [ih]
        constructor
        · rintro ⟨used, hused, rfl⟩
          exact ⟨c :: used, by simp [h, hused], rfl⟩
        · rintro ⟨used, hused, happ⟩
          obtain ⟨d, ds, rfl, -, hds⟩ := List.map_eq_cons_iff.1 hused
          rw [List.cons_append, List.cons.injEq] at happ
          exact ⟨ds, hds, happ.2⟩
      · rename_i h
        simp only [reduceCtorEq, false_iff, not_exists, not_and]
        intro used hused happ
        obtain ⟨d, ds, rfl, hd, -⟩ := List.map_eq_cons_iff.1 hused
        rw [List.cons_append, List.cons.injEq] at happ
        exact h (by rw [happ.1, hd])

theorem afterWord?_spelled {keyword : String} {w : List Char} (h : Spells keyword w)
    (hk : keyword.toList.map Char.toLower = keyword.toList) (rest : List Char) :
    afterWord? keyword.toList (w ++ rest) = some rest :=
  afterWord?_eq_some_iff.2 ⟨w, h.trans hk.symm, rfl⟩

/-- A keyword is not read where another character stands. -/
theorem afterWord?_eq_none {first : Char} {others cs : List Char}
    (h : ∀ c ∈ cs.head?, c.toLower ≠ first.toLower) : afterWord? (first :: others) cs = none := by
  cases cs with
  | nil => rfl
  | cons c cs => exact if_neg fun heq => h c rfl heq.symm

theorem afterExact?_eq_none {first : Char} {others cs : List Char}
    (h : ∀ c ∈ cs.head?, c ≠ first) : afterExact? (first :: others) cs = none := by
  cases cs with
  | nil => rfl
  | cons c cs => exact if_neg fun heq => h c rfl heq.symm

/-- A word of a label ends where the label does. -/
theorem span_label {word rest : List Char} (hword : ∀ c ∈ word, isLabelChar c = true)
    (hne : word ≠ []) (hapart : Apart word rest) :
    (word ++ rest).takeWhile isLabelChar = word ∧ (word ++ rest).dropWhile isLabelChar = rest := by
  refine Text.span_append hword fun d hd => ?_
  have hlast : isLabelChar (word.getLast hne) = true := hword _ (List.getLast_mem hne)
  rw [Apart, List.getLast?_eq_some_getLast hne, Option.mem_def.1 hd] at hapart
  simpa [hlast] using hapart

theorem label?_label {l : String} {rest : List Char} (h : IsLabel l)
    (hapart : Apart l.toList rest) : label? (l.toList ++ rest) = some (l, rest) := by
  obtain ⟨htake, hdrop⟩ := span_label (List.all_eq_true.1 h.all_chars) h.ne_nil hapart
  have hreserved : isReserved l.toList = false := by
    have helse : (l.toList.map Char.toLower == "else".toList) = false := by
      simpa [Spells] using h.not_else
    have hif : (l.toList.map Char.toLower == "if".toList) = false := by
      simpa [Spells] using h.not_if
    rw [isReserved, helse, hif]
    rfl
  have hempty : l.toList.isEmpty = false := by simpa using h.ne_nil
  simp only [label?, htake, hdrop, hempty, hreserved, Bool.or_self, Bool.false_eq_true, if_false,
    String.ofList_toList]

theorem label?_else {w rest : List Char} (h : Spells "else" w) (hapart : Apart w rest) :
    label? (w ++ rest) = none := by
  have hne : w ≠ [] := by
    rintro rfl
    cases h
  obtain ⟨htake, -⟩ := span_label (h.isLabelChar (by decide +kernel)) hne hapart
  have hreserved : isReserved w = true := by
    rw [isReserved, h]
    rfl
  simp only [label?, htake, hreserved, Bool.or_true, if_true]

/-! ## Reading a branch -/

/-- What comes behind a branch: nothing, or something that begins with a separator. -/
def Follows (words : List (List Char)) : Prop :=
  ∀ w ∈ words.head?, IsSeparator w

theorem IsSeparator.isSolid {s : List Char} (h : IsSeparator s) : IsSolid s := by
  cases h with
  | word h => exact h.isSolid (by decide) (by decide +kernel)
  | divider h => exact isSolid_divider h

/-- Behind a branch stands nothing, an `else` or a divider. -/
theorem Spaced.cases_follows {words : List (List Char)} {text : List Char}
    (h : Spaced words text) (hf : Follows words) :
    Text.dropBlanks text = [] ∨
      (∃ w rest, Spells "else" w ∧ Apart w rest ∧ Text.dropBlanks text = w ++ rest) ∨
      ∃ d rest, isDivider d = true ∧ Text.dropBlanks text = d :: rest := by
  cases words with
  | nil => exact .inl h.dropBlanks_nil
  | cons s words =>
    have hs : IsSeparator s := hf s rfl
    obtain ⟨rest, hbody, hapart, -⟩ := h.exists_text hs.isSolid
    cases hs with
    | word hw => exact .inr (.inl ⟨_, rest, hw, hapart, hbody⟩)
    | divider hd => exact .inr (.inr ⟨_, rest, hd, hbody⟩)

theorem arrow?_of_follows {words : List (List Char)} {text : List Char} (hf : Follows words)
    (h : Spaced words text) : arrow? text = none := by
  have hhead : ∀ c ∈ (Text.dropBlanks text).head?, c.toLower ≠ 't' ∧ c ≠ '-' ∧ c ≠ '?' := by
    rcases h.cases_follows hf with hnil | ⟨w, rest, hw, -, hbody⟩ | ⟨d, rest, hd, hbody⟩
    · simp [hnil]
    · obtain ⟨c, cs, rfl, hc⟩ := hw.exists_cons rfl
      simp only [hbody, List.cons_append, List.head?_cons, Option.mem_some_iff, forall_eq']
      refine ⟨by rw [hc]; decide, ?_, ?_⟩ <;> (rintro rfl; exact absurd hc (by decide))
    · simp only [hbody, List.head?_cons, Option.mem_some_iff, forall_eq']
      rcases cases_divider hd with rfl | rfl | rfl <;> decide
  have hthen : afterWord? "then".toList (Text.dropBlanks text) = none :=
    afterWord?_eq_none fun c hc => (hhead c hc).1
  have hdash : afterExact? "->".toList (Text.dropBlanks text) = none :=
    afterExact?_eq_none fun c hc => (hhead c hc).2.1
  have hmark : afterExact? "?".toList (Text.dropBlanks text) = none :=
    afterExact?_eq_none fun c hc => (hhead c hc).2.2
  rw [arrow?, hthen, hdash, hmark]
  rfl

/-- Neither the next separator nor an `else` before a label is a label of the branch. -/
theorem target_of_follows {words : List (List Char)} {text : List Char} (hf : Follows words)
    (h : Spaced words text) : target text = (none, text) := by
  have hnone : label? (Text.dropBlanks text) = none := by
    rcases h.cases_follows hf with hnil | ⟨w, rest, hw, hapart, hbody⟩ | ⟨d, rest, hd, hbody⟩
    · rw [hnil]
      rfl
    · rw [hbody, label?_else hw hapart]
    · have hchar : isLabelChar d = false := by
        rcases cases_divider hd with rfl | rfl | rfl <;> decide +kernel
      simp [hbody, label?, hchar]
  rw [target, hnone]

theorem arrow?_arrow {a text rest : List Char} (ha : IsArrow a)
    (h : Text.dropBlanks text = a ++ rest) : arrow? text = some rest := by
  rw [arrow?, h]
  cases ha with
  | word hw => rw [afterWord?_spelled hw (by decide)]; rfl
  | dash => rfl
  | mark => rfl

/-- The end of a branch is read. -/
theorem target_of_isTarget {label : Option String} {target following : List (List Char)}
    {text : List Char} (ht : IsTarget label target) (hf : Follows following)
    (h : Spaced (target ++ following) text) :
    ∃ rest, Conditional.target ((arrow? text).getD text) = (label, rest) ∧
      Spaced following rest := by
  cases ht with
  | nothing =>
    rw [arrow?_of_follows hf h]
    exact ⟨text, target_of_follows hf h, h⟩
  | arrow ha =>
    obtain ⟨rest, hbody, -, hrest⟩ := h.exists_text ha.isSolid
    rw [arrow?_arrow ha hbody]
    exact ⟨rest, target_of_follows hf hrest, hrest⟩
  | label ha hl =>
    obtain ⟨mid, hbody, -, hmid⟩ := h.exists_text ha.isSolid
    obtain ⟨rest, hlabel, hapart, hrest⟩ := hmid.exists_text hl.isSolid
    rw [arrow?_arrow ha hbody]
    refine ⟨rest, ?_, hrest⟩
    simp only [Option.getD_some, Conditional.target, hlabel, label?_label hl hapart]

theorem subject?_subject {s : List Char} (hs : IsSubject s) (rest : List Char) :
    subject? (s ++ rest) = some rest := by
  cases hs with
  | braces => rfl
  | word hw =>
    have hread := afterWord?_spelled hw (by decide) rest
    obtain ⟨c, cs, rfl, hc⟩ := hw.exists_cons rfl
    have hbraces : afterExact? "\x7bchar\x7d".toList (c :: cs ++ rest) = none := by
      show afterExact? ('\x7b' :: _) _ = none
      refine afterExact?_eq_none fun d hd => ?_
      obtain rfl : c = d := by simpa using hd
      rintro rfl
      exact absurd hc (by decide)
    rw [subject?, hbraces, hread]
    rfl

/-- The beginning of a branch is passed over, up to the word for the character. -/
theorem skipIf_of_isOpening {opening words : List (List Char)} {text : List Char}
    (ho : IsOpening opening) (h : Spaced (opening ++ words) text) :
    ∃ s rest, IsSubject s ∧ skipIf text = s ++ rest ∧ Spaced words rest := by
  cases ho with
  | @plain s hs =>
    obtain ⟨rest, hbody, -, hrest⟩ := h.exists_text hs.isSolid
    refine ⟨s, rest, hs, ?_, hrest⟩
    have hif : afterWord? "if".toList (s ++ rest) = none := by
      show afterWord? ('i' :: _) _ = none
      refine afterWord?_eq_none fun c hc => ?_
      cases hs with
      | braces =>
        obtain rfl : '\x7b' = c := by simpa using hc
        decide
      | word hw =>
        obtain ⟨d, cs, rfl, hd⟩ := hw.exists_cons rfl
        obtain rfl : d = c := by simpa using hc
        rw [hd]
        decide
    simp only [skipIf, hbody, hif]
  | @marked w s hw hs =>
    obtain ⟨mid, hbody, -, hmid⟩ := h.exists_text (hw.isSolid (by decide) (by decide +kernel))
    obtain ⟨rest, hsubject, -, hrest⟩ := hmid.exists_text hs.isSolid
    refine ⟨s, rest, hs, ?_, hrest⟩
    simp only [skipIf, hbody, afterWord?_spelled hw (by decide), hsubject]

theorem quoted?_quote {q : Char} (h : q = '\'' ∨ q = '"') (c : Char) (rest : List Char) :
    quoted? ([q, c, q] ++ rest) = some (c, rest) := by
  simp [quoted?, h]

/-- A branch is read as it is written, and what comes behind it is left. -/
theorem branch?_of_isBranch {b : Char × Option String} {branch following : List (List Char)}
    {text : List Char} (hb : IsBranch b branch) (hf : Follows following)
    (h : Spaced (branch ++ following) text) :
    ∃ rest, branch? text = some (b, rest) ∧ Spaced following rest := by
  cases hb with
  | @mk c q label opening target ho hq ht =>
    rw [List.append_assoc] at h
    obtain ⟨s, rest₁, hs, hskip, h₁⟩ := skipIf_of_isOpening ho h
    obtain ⟨rest₂, hequals, -, h₂⟩ := h₁.exists_text ⟨'=', ['='], rfl, by decide⟩
    obtain ⟨rest₃, hquote, -, h₃⟩ := h₂.exists_text (isSolid_quote hq c)
    obtain ⟨rest, htarget, hrest⟩ := target_of_isTarget ht hf h₃
    refine ⟨rest, ?_, hrest⟩
    have hsubject : subject? (skipIf text) = some rest₁ := by rw [hskip, subject?_subject hs]
    have hexact : afterExact? "==".toList (Text.dropBlanks rest₁) = some rest₂ :=
      afterExact?_eq_some_iff.2 hequals
    have hchar : quoted? (Text.dropBlanks rest₂) = some (c, rest₃) := by
      rw [hquote, quoted?_quote hq]
    simp only [branch?, hsubject, hexact, hchar, htarget, Option.bind_eq_bind, Option.bind_some]
    rfl

/-! ## What a reader leaves -/

theorem dropBlanks_suffix (cs : List Char) : Text.dropBlanks cs <:+ cs :=
  List.dropWhile_suffix _

theorem suffix_of_afterExact? {word cs rest : List Char} (h : afterExact? word cs = some rest) :
    rest <:+ cs :=
  ⟨word, (afterExact?_eq_some_iff.1 h).symm⟩

theorem suffix_of_afterWord? {word cs rest : List Char} (h : afterWord? word cs = some rest) :
    rest <:+ cs := by
  obtain ⟨used, -, hcs⟩ := afterWord?_eq_some_iff.1 h
  exact ⟨used, hcs.symm⟩

theorem skipIf_suffix (cs : List Char) : skipIf cs <:+ cs := by
  rw [skipIf]
  split
  · rename_i rest h
    exact (dropBlanks_suffix rest).trans ((suffix_of_afterWord? h).trans (dropBlanks_suffix cs))
  · exact dropBlanks_suffix cs

theorem suffix_of_subject? {cs rest : List Char} (h : subject? cs = some rest) : rest <:+ cs := by
  rcases Option.or_eq_some_iff.1 h with h | ⟨-, h⟩
  · exact suffix_of_afterExact? h
  · exact suffix_of_afterWord? h

theorem suffix_of_quoted? {cs rest : List Char} {c : Char} (h : quoted? cs = some (c, rest)) :
    rest <:+ cs := by
  unfold quoted? at h
  split at h
  · rename_i q d q' _
    split at h
    · obtain ⟨-, rfl⟩ := Prod.mk.inj (Option.some.inj h)
      exact ⟨[q, d, q'], rfl⟩
    · cases h
  · cases h

theorem arrow?_suffix (cs : List Char) : (arrow? cs).getD cs <:+ cs := by
  cases h : arrow? cs with
  | none => exact List.suffix_refl cs
  | some rest =>
    refine List.IsSuffix.trans ?_ (dropBlanks_suffix cs)
    rcases Option.or_eq_some_iff.1 h with h | ⟨-, h⟩
    · rcases Option.or_eq_some_iff.1 h with h | ⟨-, h⟩
      · exact suffix_of_afterWord? h
      · exact suffix_of_afterExact? h
    · exact suffix_of_afterExact? h

theorem target_suffix (cs : List Char) : (target cs).2 <:+ cs := by
  unfold target
  split
  · rename_i label rest h
    simp only [label?, Option.ite_none_left_eq_some, Option.some.injEq, Prod.mk.injEq] at h
    obtain ⟨-, -, rfl⟩ := h
    exact (List.dropWhile_suffix _).trans (dropBlanks_suffix cs)
  · exact List.suffix_refl cs

/-- A branch holds `==`, so where there is none no branch is read. -/
theorem of_branch? {cs rest : List Char} {b : Char × Option String}
    (h : branch? cs = some (b, rest)) : '=' ∈ cs ∧ rest.length < cs.length := by
  simp only [branch?, Option.bind_eq_bind, Option.bind_eq_some_iff, Option.pure_def] at h
  obtain ⟨rest₁, h₁, rest₂, h₂, ⟨c, rest₃⟩, h₃, h⟩ := h
  obtain rfl : (target ((arrow? rest₃).getD rest₃)).2 = rest :=
    congrArg Prod.snd (Option.some.inj h)
  have hsuffix : Text.dropBlanks rest₁ <:+ cs :=
    (dropBlanks_suffix rest₁).trans ((suffix_of_subject? h₁).trans (skipIf_suffix cs))
  have hequals : Text.dropBlanks rest₁ = '=' :: '=' :: rest₂ := afterExact?_eq_some_iff.1 h₂
  have hlast : (target ((arrow? rest₃).getD rest₃)).2 <:+ rest₂ :=
    (target_suffix _).trans <| (arrow?_suffix rest₃).trans <|
      (suffix_of_quoted? h₃).trans (dropBlanks_suffix rest₂)
  rw [hequals] at hsuffix
  have hle := hsuffix.length_le
  have hle' := hlast.length_le
  simp only [List.length_cons] at hle
  exact ⟨hsuffix.subset List.mem_cons_self, by omega⟩

theorem suffix_of_separator? {cs rest : List Char} (h : separator? cs = some rest) :
    rest <:+ cs := by
  refine List.IsSuffix.trans ?_ (dropBlanks_suffix cs)
  rcases Option.or_eq_some_iff.1 h with h | ⟨-, h⟩
  · exact suffix_of_afterWord? h
  · split at h
    · rename_i c after hbody
      obtain ⟨-, ⟨⟩⟩ := Option.ite_none_right_eq_some.1 h
      rw [hbody]
      exact List.suffix_cons c _
    · cases h

/-! ## Reading an expression -/

theorem separator?_separator {s text rest : List Char} (hs : IsSeparator s)
    (h : Text.dropBlanks text = s ++ rest) : separator? text = some rest := by
  rw [separator?, h]
  cases hs with
  | word hw => rw [afterWord?_spelled hw (by decide)]; rfl
  | divider hd =>
    rcases cases_divider hd with rfl | rfl | rfl <;> rfl

theorem IsFinal.follows {label : Option String} {final : List (List Char)}
    (h : IsFinal label final) : Follows final := by
  cases h with
  | nothing => intro w hw; cases hw
  | plain hw _ => intro w hm; cases hm; exact .word hw
  | divided hd _ _ => intro w hm; cases hm; exact .divider hd

theorem IsMore.follows {bs : List (Char × Option String)} {label : Option String}
    {more final : List (List Char)} (hm : IsMore bs more) (hl : IsFinal label final) :
    Follows (more ++ final) := by
  cases hm with
  | nil => exact hl.follows
  | cons hs _ _ => intro w hw; cases hw; exact hs

/-- The last label is not behind a test. -/
theorem IsFinal.not_mem {label : Option String} {final : List (List Char)}
    (h : IsFinal label final) : ∀ w ∈ final, '=' ∉ w := by
  have hchars : ∀ w : List Char, (∀ c ∈ w, isLabelChar c = true) → '=' ∉ w :=
    fun w hw hm => absurd (hw _ hm) (by decide +kernel)
  have hword : ∀ w : List Char, Spells "else" w → '=' ∉ w :=
    fun w hw => hchars w (hw.isLabelChar (by decide +kernel))
  cases h with
  | nothing => simp
  | plain hw hl => simp [hword _ hw, hchars _ (List.all_eq_true.1 hl.all_chars)]
  | divided hd hw hl =>
    have hdivider : ∀ d, isDivider d = true → '=' ≠ d := by
      rintro d hd rfl
      cases hd
    simp [hdivider _ hd, hword _ hw, hchars _ (List.all_eq_true.1 hl.all_chars)]

/-- An `else` before the last label does not begin one more branch. -/
theorem moreBranches_final {label : Option String} {final : List (List Char)} {text : List Char}
    (hl : IsFinal label final) (h : Spaced final text) : moreBranches text = ([], text) := by
  have hequals : '=' ∉ text := h.not_mem (by decide) hl.not_mem
  have hnone : (separator? text).bind branch? = none := by
    rw [Option.bind_eq_none_iff]
    intro rest hrest
    cases hbranch : branch? rest with
    | none => rfl
    | some found =>
      exact absurd ((suffix_of_separator? hrest).subset (of_branch? hbranch).1) hequals
  rw [moreBranches, hnone]

/-- The branches after the first are read one by one, up to the last label. -/
theorem moreBranches_of_isMore {bs : List (Char × Option String)} {label : Option String}
    {more final : List (List Char)} {text : List Char} (hm : IsMore bs more)
    (hl : IsFinal label final) (h : Spaced (more ++ final) text) :
    ∃ rest, moreBranches text = (bs, rest) ∧ Spaced final rest := by
  induction hm generalizing text with
  | nil => exact ⟨text, moreBranches_final hl h, h⟩
  | cons hs hb hm ih =>
    rw [List.cons_append, List.append_assoc] at h
    obtain ⟨rest₁, hbody, -, h₁⟩ := h.exists_text hs.isSolid
    obtain ⟨rest₂, hbranch, h₂⟩ := branch?_of_isBranch hb (hm.follows hl) h₁
    obtain ⟨rest, hrest, hfinal⟩ := ih h₂
    have hseparator := separator?_separator hs hbody
    have hshorter : rest₂.length < text.length :=
      Nat.lt_of_lt_of_le (of_branch? hbranch).2 (suffix_of_separator? hseparator).length_le
    refine ⟨rest, ?_, hfinal⟩
    rw [moreBranches, hseparator, Option.bind_some, hbranch]
    simp only [hshorter, if_true, hrest]

theorem Spaced.allBlank {text : List Char} (h : Spaced [] text) : Text.allBlank text = true :=
  Text.dropBlanks_eq_nil_iff.1 h.dropBlanks_nil

/-- `else` and the last label are read, and only blanks are left. -/
theorem else_label {w body rest : List Char} {l : String} (hw : Spells "else" w) (hl : IsLabel l)
    (hbody : body = w ++ rest) (h : Spaced [l.toList] rest) :
    ∃ after, ((afterWord? "else".toList body).bind fun rest => label? (Text.dropBlanks rest)) =
      some (l, after) ∧ Text.allBlank after = true := by
  obtain ⟨after, hlabel, hapart, hafter⟩ := h.exists_text hl.isSolid
  refine ⟨after, ?_, hafter.allBlank⟩
  rw [hbody, afterWord?_spelled hw (by decide), Option.bind_some, hlabel, label?_label hl hapart]

theorem otherwise?_of_isFinal {label : Option String} {final : List (List Char)} {text : List Char}
    (hl : IsFinal label final) (h : Spaced final text) :
    (label = none ∧ otherwise? text = none ∧ Text.allBlank text = true) ∨
      ∃ l rest, label = some l ∧ otherwise? text = some (l, rest) ∧
        Text.allBlank rest = true := by
  cases hl with
  | nothing =>
    have hnone : otherwise? text = none := by
      rw [otherwise?, h.dropBlanks_nil]
      rfl
    exact .inl ⟨rfl, hnone, h.allBlank⟩
  | @plain w l hw hl =>
    obtain ⟨rest, hbody, -, hrest⟩ := h.exists_text (hw.isSolid (by decide) (by decide +kernel))
    obtain ⟨after, hread, hafter⟩ := else_label hw hl rfl hrest
    have hsome : otherwise? text = some (l, after) := by
      obtain ⟨c, cs, rfl, hc⟩ := hw.exists_cons rfl
      have hdivider : isDivider c = false := by
        rw [Bool.eq_false_iff]
        intro hd
        rcases cases_divider hd with rfl | rfl | rfl <;> exact absurd hc (by decide)
      simp only [otherwise?, hbody, List.cons_append, hdivider, Bool.false_eq_true, if_false]
      exact hread
    exact .inr ⟨l, after, rfl, hsome, hafter⟩
  | @divided d w l hd hw hl =>
    obtain ⟨mid, hbody, -, hmid⟩ := h.exists_text (isSolid_divider hd)
    obtain ⟨rest, helse, -, hrest⟩ :=
      hmid.exists_text (hw.isSolid (by decide) (by decide +kernel))
    obtain ⟨after, hread, hafter⟩ := else_label hw hl helse hrest
    have hsome : otherwise? text = some (l, after) := by
      simp only [otherwise?, hbody, List.cons_append, List.nil_append, hd, if_true]
      exact hread
    exact .inr ⟨l, after, rfl, hsome, hafter⟩

/-! ## Reading undoes writing -/

/-- An expression is read as the conditional that it writes. -/
theorem parse?_of_isExpression {c : Conditional} {words : List (List Char)} {expression : String}
    (hc : IsExpression c words) (h : Spaced words expression.toList) :
    parse? expression = some c := by
  cases hc with
  | @mk b bs label first more final hb hm hl =>
    obtain ⟨rest₁, hbranch, h₁⟩ := branch?_of_isBranch hb (hm.follows hl) h
    obtain ⟨rest₂, hmore, h₂⟩ := moreBranches_of_isMore hm hl h₁
    rcases otherwise?_of_isFinal hl h₂ with ⟨rfl, hread, hblank⟩ | ⟨l, rest, rfl, hread, hblank⟩
    all_goals
      simp only [parse?, hbranch, hmore, hread, hblank, Option.bind_eq_bind, Option.bind_some,
        if_true]

/-- Labels that begin like keywords, and words that stand as close as they may. -/
theorem parse?_labels_like_keywords :
    parse? "IF CHAR=='I'Then IFFY,\x7bchar\x7d == \"'\" -> CHARLIE Else char==';'?:eLse ELSEWHERE" =
      some ⟨[('I', some "IFFY"), ('\'', some "CHARLIE"), (';', none)], some "ELSEWHERE"⟩ := by
  have hlabels : IsLabel "IFFY" ∧ IsLabel "CHARLIE" ∧ IsLabel "ELSEWHERE" := by
    refine ⟨⟨?_, ?_, ?_, ?_⟩, ⟨?_, ?_, ?_, ?_⟩, ⟨?_, ?_, ?_, ?_⟩⟩ <;> decide +kernel
  have hfirst : IsBranch ('I', some "IFFY") _ :=
    .mk (.marked (w := "IF".toList) rfl (.word (w := "CHAR".toList) rfl)) (.inl rfl)
      (.label (.word (w := "Then".toList) rfl) hlabels.1)
  have hsecond : IsBranch ('\'', some "CHARLIE") _ :=
    .mk (.plain .braces) (.inr rfl) (.label .dash hlabels.2.1)
  have hthird : IsBranch (';', none) _ :=
    .mk (.plain (.word (w := "char".toList) rfl)) (.inl rfl) (.arrow .mark)
  have hmore : IsMore [('\'', some "CHARLIE"), (';', none)] _ :=
    .cons (.divider (d := ',') rfl) hsecond (.cons (.word (w := "Else".toList) rfl) hthird .nil)
  have hfinal : IsFinal (some "ELSEWHERE") _ :=
    .divided (d := ':') (w := "eLse".toList) rfl rfl hlabels.2.2
  exact parse?_of_isExpression (.mk hfirst hmore hfinal) (spaced_of_isSpaced (by decide +kernel))

end Conditional

end DataDivision.Rules
