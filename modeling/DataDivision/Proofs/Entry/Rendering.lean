import DataDivision.Entry.Descriptor
import DataDivision.Proofs.Entry.Clauses

/-!
Entries as they are written.

A draft says what an entry is to declare.  It can be written in many texts: the clauses in any
order, keywords in any case and with their optional words or without, white space of any kind and
length, and a period at the end or not.  Each of these texts is read as what the draft says
(`scan_rendering`).
-/

namespace DataDivision.Entry

/-- What an entry is to declare: at most one clause of each kind. -/
structure Draft where
  level : Nat
  name : String
  redefines : Option String := none
  picture : Option String := none
  usage : Option String := none
  occurs : Option Nat := none
  value : Option String := none
  deriving DecidableEq, Repr

namespace Draft

/-- The clauses of a draft, in some order. -/
def clauses (d : Draft) : List Clause :=
  d.redefines.toList.map .redefines ++ d.picture.toList.map .picture ++
    d.usage.toList.map .usage ++ d.occurs.toList.map .occurs ++ d.value.toList.map .value

def Says (d : Draft) : Clause → Prop
  | .redefines target => d.redefines = some target
  | .picture text => d.picture = some text
  | .usage word => d.usage = some word
  | .occurs count => d.occurs = some count
  | .value text => d.value = some text

theorem mem_clauses {d : Draft} {c : Clause} : c ∈ d.clauses ↔ d.Says c := by
  cases c <;> simp [clauses, Says]

/-- The level is one of data description entries, the name a data name, and the clauses can be
said. -/
structure IsSound (d : Draft) : Prop where
  level : isLevel d.level = true
  name : isDataName d.name.toList = true
  clauses : ∀ c ∈ d.clauses, c.IsSound

/-- The entry that a draft declares. -/
def descriptor (d : Draft) (span : Span) : Descriptor where
  level := d.level
  name := d.name
  kind :=
    if d.level = 88 then .condition
    else if d.picture.isSome || d.usage.any (floatUsages.contains <| Text.asciiUpper ·) then
      .elementary
    else .group
  picture := d.picture.map Text.asciiUpper
  shape := d.picture.bind fun text => (Picture.analyze text).toOption
  usage := d.usage.map Text.asciiUpper
  occurs := d.occurs
  redefines := d.redefines
  value := d.value
  span := span

/-- The text writes the draft: the level in two digits, the name and the clauses in some order, with
white space between any two of its words and literals, and a period behind it or not. -/
inductive IsRendering (d : Draft) : List Char → Prop
  | mk {margin gap period : List Char} {order : List Clause} {pieces : List (List Char × Item)} :
    Text.allBlank margin = true → IsGap gap → order.Perm d.clauses →
    AreWritten order (pieces.map (·.2)) → (∀ x ∈ pieces, IsGap x.1) →
    period = [] ∨ period = ['.'] →
    IsRendering d (margin ++ (Text.twoDigits d.level).toList ++ gap ++ d.name.toList ++
      (render pieces ++ period))

end Draft

/-! ## There is a way to write each draft -/

theorem Clause.exists_isWritten {c : Clause} (hs : c.IsSound)
    (hvalue : ∀ text, c = .value text → '\'' ∉ text.toList ∨ '"' ∉ text.toList) :
    ∃ items, c.IsWritten items := by
  cases c with
  | redefines target => exact ⟨_, @IsWritten.redefines "REDEFINES".toList target rfl⟩
  | picture text =>
    exact ⟨_, @IsWritten.picture "PIC".toList "PIC" text [] (by decide) rfl .absent⟩
  | usage word => exact ⟨_, @IsWritten.usage "USAGE".toList word [] rfl .absent⟩
  | occurs count =>
    exact ⟨_, @IsWritten.occurs "OCCURS".toList _ count [] rfl (isNumeral_toDigits count) .absent⟩
  | value text =>
    have hwritten : ∀ q, Token.isQuote q = true → q ∉ text.toList →
        ∃ items, (Clause.value text).IsWritten items := fun q hq hmem =>
      ⟨_, @IsWritten.value "VALUE".toList "VALUE" text [] q (by decide) rfl .absent hq hmem⟩
    exact (hvalue text rfl).elim (hwritten '\'' rfl) (hwritten '"' rfl)

theorem exists_areWritten {clauses : List Clause} (h : ∀ c ∈ clauses, ∃ items, c.IsWritten items) :
    ∃ items, AreWritten clauses items := by
  induction clauses with
  | nil => exact ⟨[], .nil⟩
  | cons c clauses ih =>
    obtain ⟨⟨is, hc⟩, hclauses⟩ := List.forall_mem_cons.1 h
    obtain ⟨items, hitems⟩ := ih hclauses
    exact ⟨is ++ items, .cons hc hitems⟩

/-- Every draft can be written, unless its value has quotes of both kinds in it. -/
theorem Draft.exists_isRendering {d : Draft} (hs : d.IsSound)
    (hvalue : ∀ text ∈ d.value, '\'' ∉ text.toList ∨ '"' ∉ text.toList) :
    ∃ text, d.IsRendering text := by
  have hclauses : ∀ c ∈ d.clauses, ∃ items, c.IsWritten items := by
    intro c hc
    refine c.exists_isWritten (hs.clauses c hc) ?_
    rintro text rfl
    exact hvalue text (Draft.mem_clauses.1 hc)
  obtain ⟨items, hitems⟩ := exists_areWritten hclauses
  have hpieces : AreWritten d.clauses ((items.map fun i => ([' '], i)).map (·.2)) := by
    rw [List.map_map, show (·.2) ∘ (fun i : Item => ([' '], i)) = id from rfl, List.map_id]
    exact hitems
  have hgap : IsGap [' '] := by decide
  refine ⟨_, @IsRendering.mk d [] [' '] [] d.clauses _ rfl hgap (.refl _) hpieces ?_ (.inl rfl)⟩
  intro x hx
  obtain ⟨i, -, rfl⟩ := List.mem_map.1 hx
  exact hgap

/-! ## The head -/

theorem exists_digits {level : Nat} (h : isLevel level = true) :
    ∃ tens ones, (Text.twoDigits level).toList = [tens, ones] ∧ tens.isDigit = true ∧
      ones.isDigit = true ∧ 10 * (tens.toNat - '0'.toNat) + (ones.toNat - '0'.toNat) = level := by
  have hall : ∀ n < 100,
      (Text.twoDigits n).toList = [Nat.digitChar (n / 10), Nat.digitChar (n % 10)] ∧
      (Nat.digitChar (n / 10)).isDigit = true ∧ (Nat.digitChar (n % 10)).isDigit = true ∧
      10 * ((Nat.digitChar (n / 10)).toNat - '0'.toNat) +
        ((Nat.digitChar (n % 10)).toNat - '0'.toNat) = n := by decide +kernel
  have hlevel : level < 100 := by
    simp only [isLevel, Bool.or_eq_true, Bool.and_eq_true, decide_eq_true_eq, beq_iff_eq] at h
    omega
  exact ⟨_, _, hall level hlevel⟩

/-- The clauses stand behind white space, and if there are none the name ends the text or its period
does. -/
theorem endsName_render {pieces : List (List Char × Item)} {period : List Char}
    (hpieces : ∀ x ∈ pieces, IsGap x.1) (hperiod : period = [] ∨ period = ['.']) :
    Head.endsName (render pieces ++ period) = true := by
  cases pieces with
  | nil => rcases hperiod with rfl | rfl <;> decide +kernel
  | cons x rest =>
    obtain ⟨⟨hne, hblank⟩, -⟩ := List.forall_mem_cons.1 hpieces
    obtain ⟨gap, item⟩ := x
    cases gap with
    | nil => exact absurd rfl hne
    | cons c gap =>
      simp only [Text.allBlank, List.all_cons, Bool.and_eq_true] at hblank
      simp [render, Head.endsName, hblank.1]

/-! ## The clauses in any order -/

namespace Draft

/-- There is at most one clause of each kind, so the order of two does not matter. -/
theorem Says.comm {d : Draft} {c c' : Clause} (hc : d.Says c) (hc' : d.Says c') (cs : Clauses) :
    (cs.saying c).saying c' = (cs.saying c').saying c := by
  have hinj : ∀ {α : Type} {o : Option α} {a b : α}, o = some a → o = some b → a = b :=
    fun ha hb => Option.some.inj (ha.symm.trans hb)
  cases c <;> cases c' <;> first | rfl | rw [hinj hc hc']

theorem foldl_clauses (d : Draft) :
    d.clauses.foldl Clauses.saying {} =
      { picture := d.picture.map Text.asciiUpper, usage := d.usage.map Text.asciiUpper
        occurs := d.occurs, redefines := d.redefines, value := d.value } := by
  obtain ⟨level, name, redefines, picture, usage, occurs, value⟩ := d
  cases redefines <;> cases picture <;> cases usage <;> cases occurs <;> cases value <;> rfl

theorem foldl_of_perm {d : Draft} {order : List Clause} (h : order.Perm d.clauses) :
    order.foldl Clauses.saying {} = d.clauses.foldl Clauses.saying {} :=
  h.foldl_eq' (fun _ hc _ hc' cs => Says.comm (mem_clauses.1 (h.mem_iff.1 hc))
    (mem_clauses.1 (h.mem_iff.1 hc')) cs) {}

end Draft

/-- The head and the clauses of a draft are described as the draft says. -/
theorem describe_eq {d : Draft} (hs : d.IsSound) {head : Head} (hlevel : head.levelNumber = d.level)
    (hname : head.name = d.name.toList)
    (hread : ({} : Clauses).read (Token.split head.clauses) =
      .ok (d.clauses.foldl Clauses.saying {})) (span : Span) :
    head.describe span = .ok (d.descriptor span) := by
  rw [Draft.foldl_clauses] at hread
  simp only [Head.describe, hlevel, hs.level, hread, hname, String.ofList_toList]
  cases hp : d.picture with
  | none =>
    cases hu : d.usage <;> simp [Draft.descriptor, kindOf, hp, hu] <;> rfl
  | some text =>
    obtain ⟨shape, hshape⟩ := (hs.clauses (.picture text) (Draft.mem_clauses.2 hp)).exists_shape
    simp [Draft.descriptor, kindOf, hp, Picture.analyze_asciiUpper, hshape]
    rfl

/-- An entry is read back from every text that writes it. -/
theorem scan_rendering {d : Draft} {text : List Char} (hs : d.IsSound) (h : d.IsRendering text)
    (span : Span) : scan text span = .ok (some (d.descriptor span)) := by
  cases h with
  | @mk margin gap period order pieces hmargin hgap horder hwritten hgaps hperiod =>
    have horders : ∀ c ∈ order, c.IsSound := fun c hc => hs.clauses c (horder.mem_iff.1 hc)
    have hplain := hwritten.isPlain horders
    have hshows := shows_split (fun x hx => ⟨hgaps x hx, hplain _ (List.mem_map_of_mem hx)⟩) hperiod
    obtain ⟨tens, ones, hdigits, htens, hones, hlevel⟩ := exists_digits hs.level
    have hsplit := split?_head hmargin htens hones hgap hs.name (endsName_render hgaps hperiod)
    have hread := read_clauses {} horders hwritten hshows
    rw [Draft.foldl_of_perm horder] at hread
    have hnumber : Head.levelNumber ⟨(tens, ones), d.name.toList, render pieces ++ period⟩ =
        d.level := by
      rw [Head.levelNumber, hlevel]
    have hdescribe := describe_eq hs hnumber rfl hread span
    rw [hdigits, scan, hsplit]
    simp only [hdescribe]

/-- A text with its clauses in another order, keywords in either case and a period in a literal. -/
theorem scan_rendering_any_order :
    let d : Draft :=
      { level := 5, name := "Amount", redefines := some "OLD-AMOUNT", picture := some "s9(4)v99"
        usage := some "comp-3", occurs := some 12, value := some "PIC. X" }
    let text := ("05  Amount usage Is comp-3 VALUE 'PIC. X'  OCCURS 1 to 012 Times pic s9(4)v99 " ++
      "redefines OLD-AMOUNT.").toList
    let span := Span.of 0 99
    d.IsSound ∧ d.IsRendering text ∧ scan text span = .ok (some (d.descriptor span)) ∧
      (d.descriptor span).picture = some "S9(4)V99" ∧
      (d.descriptor span).shape = some ⟨6, 2, true, .decimal⟩ ∧
      (d.descriptor span).usage = some "COMP-3" ∧ (d.descriptor span).kind = .elementary := by
  intro d text span
  have hsound : d.IsSound := by
    refine ⟨by decide, by decide, fun c hc => ?_⟩
    rw [Draft.mem_clauses] at hc
    cases c with
    | redefines =>
      obtain rfl := Option.some.inj hc
      exact show isDataName "OLD-AMOUNT".toList = true by decide
    | picture =>
      obtain rfl := Option.some.inj hc
      exact ⟨by decide +kernel, by decide +kernel, by decide⟩
    | usage =>
      obtain rfl := Option.some.inj hc
      exact ⟨by decide, by decide +kernel, by decide⟩
    | occurs =>
      obtain rfl := Option.some.inj hc
      exact ⟨by decide, by decide⟩
    | value => trivial
  have hrendering : d.IsRendering text := by
    let item (w : String) : Item := .word w.toList
    have husage : (Clause.usage "comp-3").IsWritten [item "usage", item "Is", item "comp-3"] :=
      @Clause.IsWritten.usage "usage".toList "comp-3" [item "Is"] rfl
        (@IsOptional.present ["IS"] "Is".toList "IS" (by decide) rfl)
    have hvalue : (Clause.value "PIC. X").IsWritten
        [item "VALUE", .quoted '\'' "PIC. X".toList] :=
      @Clause.IsWritten.value "VALUE".toList "VALUE" "PIC. X" [] '\'' (by decide) rfl .absent rfl
        (by decide)
    have hoccurs : (Clause.occurs 12).IsWritten
        [item "OCCURS", item "1", item "to", item "012", item "Times"] :=
      @Clause.IsWritten.occursTo "OCCURS".toList "1".toList "to".toList "012".toList 1 12
        [item "Times"] rfl ⟨rfl, rfl⟩ (by decide) rfl ⟨rfl, rfl⟩
        (@IsOptional.present ["TIMES"] "Times".toList "TIMES" (by decide) rfl)
    have hpicture : (Clause.picture "s9(4)v99").IsWritten [item "pic", item "s9(4)v99"] :=
      @Clause.IsWritten.picture "pic".toList "PIC" "s9(4)v99" [] (by decide) rfl .absent
    have hredefines : (Clause.redefines "OLD-AMOUNT").IsWritten
        [item "redefines", item "OLD-AMOUNT"] := .redefines rfl
    let gaps := [" ", " ", " ", " ", " ", "  ", " ", " ", " ", " ", " ", " ", " ", " "]
    let pieces := (gaps.map String.toList).zip ([item "usage", item "Is", item "comp-3"] ++
      ([item "VALUE", .quoted '\'' "PIC. X".toList] ++
      ([item "OCCURS", item "1", item "to", item "012", item "Times"] ++
      ([item "pic", item "s9(4)v99"] ++ ([item "redefines", item "OLD-AMOUNT"] ++ [])))))
    have htext : text = [] ++ (Text.twoDigits d.level).toList ++ "  ".toList ++ d.name.toList ++
        (render pieces ++ ['.']) := by decide +kernel
    rw [htext]
    refine .mk (by decide) (by decide) ?_ (.cons husage <| .cons hvalue <|
      .cons hoccurs <| .cons hpicture <| .cons hredefines .nil) ?_ (.inr rfl)
    · decide
    · decide +kernel
  exact ⟨hsound, hrendering, scan_rendering hsound hrendering span, by decide +kernel,
    by decide +kernel, by decide +kernel, by decide +kernel⟩

end DataDivision.Entry
