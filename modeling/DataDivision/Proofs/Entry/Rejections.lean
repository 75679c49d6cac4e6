import DataDivision.Entry.Descriptor
import DataDivision.Proofs.Entry.Clauses
import DataDivision.Proofs.Entry.Tokens

/-!
Rejected entries.

The clauses of an entry are read from the left (`Reaches`) until they end or until one of them
cannot be used (`Stuck`).  An entry is rejected for its level, for the clause where reading is
stuck, or for its last picture, and for nothing else (`Head.describe_eq_error_iff`).  `strictScan`
also has the warnings for a level that is no number and for clauses that are no tokens; no text is
given one.
-/

namespace DataDivision.Entry

/-! ## Counts -/

/-- The word, without its period, is a number of 32 bits; a plus sign may stand before it. -/
def IsCountWord (w : List Char) (n : Nat) : Prop :=
  ∃ digits, (dropPeriod w = digits ∨ dropPeriod w = '+' :: digits) ∧ IsNumeral digits n ∧
    n ≤ Text.maxWord32

/-- The next token is `TO`. -/
def BeginsTo (tokens : List Token) : Prop :=
  ∃ w rest, tokens = .word w :: rest ∧ Spells w "TO"

instance : (tokens : List Token) → Decidable (BeginsTo tokens)
  | [] => .isFalse (by rintro ⟨_, _, ⟨⟩, _⟩)
  | .literal _ :: _ => .isFalse (by rintro ⟨_, _, ⟨⟩, _⟩)
  | .word w :: rest =>
    decidable_of_iff (w.map Char.toUpper = "TO".toList)
      ⟨fun h => ⟨w, rest, rfl, h⟩, by rintro ⟨_, _, ⟨⟩, h⟩; exact h⟩

/-- A positive count, `n` or `m TO n`, and the tokens behind it and behind `TIMES`. -/
inductive IsCount : List Token → Nat → List Token → Prop where
  | single {w : List Char} {n : Nat} {rest : List Token} : IsCountWord w n → 0 < n →
      ¬ BeginsTo rest → IsCount (.word w :: rest) n (skipWord ["TIMES"] rest)
  | upTo {w t v : List Char} {m n : Nat} {rest : List Token} : IsCountWord w m → Spells t "TO" →
      IsCountWord v n → 0 < n →
      IsCount (.word w :: .word t :: .word v :: rest) n (skipWord ["TIMES"] rest)

theorem readNat?_eq_some_iff {w : List Char} {n : Nat} :
    Text.readNat? Text.maxWord32 (dropPeriod w) = some n ↔ IsCountWord w n := by
  constructor
  · intro h
    unfold Text.readNat? at h
    simp only [Option.ite_none_right_eq_some, Bool.and_eq_true, decide_eq_true_eq,
      Option.some.injEq] at h
    obtain ⟨⟨hdigits, hle⟩, rfl⟩ := h
    refine ⟨_, ?_, ⟨hdigits, rfl⟩, hle⟩
    split
    · rename_i digits hw
      exact .inr hw
    · exact .inl rfl
  · rintro ⟨digits, hw | hw, hn, hle⟩
    · rw [hw, readNat?_of_isNumeral hn hle]
    · obtain ⟨hdigits, rfl⟩ := hn
      simp [hw, Text.readNat?, hdigits, hle]

theorem takeNumber_eq_some_iff {tokens rest : List Token} {n : Nat} :
    takeNumber tokens = some (n, rest) ↔ ∃ w, tokens = .word w :: rest ∧ IsCountWord w n := by
  rw [takeNumber]
  cases tokens with
  | nil => simp [takeWord]
  | cons t tokens =>
    cases t with
    | literal text => simp [takeWord]
    | word w =>
      simp only [takeWord, Option.map_eq_some_iff, readNat?_eq_some_iff, Prod.mk.injEq,
        List.cons.injEq, Token.word.injEq]
      constructor
      · rintro ⟨m, hm, rfl, rfl⟩
        exact ⟨w, ⟨rfl, rfl⟩, hm⟩
      · rintro ⟨v, ⟨rfl, rfl⟩, hn⟩
        exact ⟨n, hn, rfl, rfl⟩

theorem takeUpper_eq_some_iff {tokens rest : List Token} {first n : Nat} :
    takeUpper first tokens = some (n, rest) ↔
      (¬ BeginsTo tokens ∧ first = n ∧ tokens = rest) ∨
        ∃ w v, Spells w "TO" ∧ tokens = .word w :: .word v :: rest ∧ IsCountWord v n := by
  by_cases hto : BeginsTo tokens
  · obtain ⟨w, after, rfl, hw⟩ := hto
    have hbegins : BeginsTo (.word w :: after) := ⟨w, after, rfl, hw⟩
    have hmap : w.map Char.toUpper = ['T', 'O'] := hw
    rw [takeUpper, if_pos hmap, takeNumber_eq_some_iff]
    constructor
    · rintro ⟨v, rfl, hv⟩
      exact .inr ⟨w, v, hw, rfl, hv⟩
    · rintro (⟨hnot, -⟩ | ⟨w', v, -, htokens, hv⟩)
      · exact absurd hbegins hnot
      · exact ⟨v, (List.cons.inj htokens).2, hv⟩
  · have hfirst : takeUpper first tokens = some (first, tokens) := by
      unfold takeUpper
      split
      · rename_i w after
        exact if_neg fun hw => hto ⟨w, after, rfl, hw⟩
      · rfl
    rw [hfirst, Option.some.injEq, Prod.mk.injEq]
    constructor
    · rintro ⟨rfl, rfl⟩
      exact .inl ⟨hto, rfl, rfl⟩
    · rintro (⟨-, rfl, rfl⟩ | ⟨w, v, hw, rfl, -⟩)
      · exact ⟨rfl, rfl⟩
      · exact absurd ⟨w, _, rfl, hw⟩ hto

theorem takeOccurs_eq_some_iff {tokens rest : List Token} {n : Nat} :
    takeOccurs tokens = some (n, rest) ↔ IsCount tokens n rest := by
  constructor
  · intro h
    unfold takeOccurs at h
    split at h
    · cases h
    · rename_i first after hnumber
      obtain ⟨w, rfl, hw⟩ := takeNumber_eq_some_iff.1 hnumber
      split at h
      · cases h
      · rename_i count last hupper
        obtain ⟨hpos, hcount⟩ := Option.ite_none_right_eq_some.1 h
        cases hcount
        rcases takeUpper_eq_some_iff.1 hupper with ⟨hto, rfl, rfl⟩ | ⟨t, v, hto, rfl, hv⟩
        · exact .single hw hpos hto
        · exact .upTo hw hto hv hpos
  · intro h
    cases h with
    | @single w _ rest hw hpos hto =>
      have hnumber : takeNumber (.word w :: rest) = some (n, rest) :=
        takeNumber_eq_some_iff.2 ⟨w, rfl, hw⟩
      have hupper : takeUpper n rest = some (n, rest) :=
        takeUpper_eq_some_iff.2 (.inl ⟨hto, rfl, rfl⟩)
      simp only [takeOccurs, hnumber, hupper, hpos, if_true]
    | @upTo w t v m _ rest hw hto hv hpos =>
      have hnumber : takeNumber (.word w :: .word t :: .word v :: rest) =
          some (m, .word t :: .word v :: rest) := takeNumber_eq_some_iff.2 ⟨w, rfl, hw⟩
      have hupper : takeUpper m (.word t :: .word v :: rest) = some (n, rest) :=
        takeUpper_eq_some_iff.2 (.inr ⟨t, v, hto, rfl, hv⟩)
      simp only [takeOccurs, hnumber, hupper, hpos, if_true]

/-! ## Clauses one after another -/

/-- The keywords with which clauses begin, but for usages that stand alone. -/
def clauseWords : List String :=
  ["REDEFINES", "PIC", "PICTURE", "USAGE", "OCCURS", "VALUE", "VALUES"]

/-- A clause that can be used, or a token of no clause, is passed over: the picture that it gives
and the tokens behind it. -/
inductive Passes : List Token → Option String → List Token → Prop where
  | literal {text : List Char} {rest : List Token} : Passes (.literal text :: rest) none rest
  | redefines {w : List Char} {rest : List Token} : keyword w = "REDEFINES" →
      Passes (.word w :: rest) none (takeWord rest).2
  | picture {w p : List Char} {rest after : List Token} : keyword w ∈ ["PIC", "PICTURE"] →
      takeWord (skipWord ["IS"] rest) = (some p, after) →
      Passes (.word w :: rest) (some (keyword p)) after
  | usage {w : List Char} {rest : List Token} : keyword w = "USAGE" →
      Passes (.word w :: rest) none (takeWord (skipWord ["IS"] rest)).2
  | occurs {w : List Char} {n : Nat} {rest after : List Token} : keyword w = "OCCURS" →
      IsCount rest n after → Passes (.word w :: rest) none after
  | value {w : List Char} {rest : List Token} : keyword w ∈ ["VALUE", "VALUES"] →
      Passes (.word w :: rest) none (takeLiteral (skipWord ["IS", "ARE"] rest)).2
  | other {w : List Char} {rest : List Token} : keyword w ∉ clauseWords →
      Passes (.word w :: rest) none rest

/-- The clause that comes next cannot be used: a picture without a word or a repetition without a
positive count. -/
inductive Stuck : List Token → ClauseError → Prop where
  | picture {w : List Char} {rest : List Token} : keyword w ∈ ["PIC", "PICTURE"] →
      (takeWord (skipWord ["IS"] rest)).1 = none → Stuck (.word w :: rest) .missingPicture
  | occurs {w : List Char} {rest : List Token} : keyword w = "OCCURS" →
      (∀ n after, ¬ IsCount rest n after) → Stuck (.word w :: rest) .invalidOccurs

/-- Reading goes from tokens to tokens behind them, and the last picture becomes another one. -/
inductive Reaches : Option String → List Token → Option String → List Token → Prop where
  | here {picture : Option String} {tokens : List Token} : Reaches picture tokens picture tokens
  | pass {picture given last : Option String} {tokens mid rest : List Token} :
      Passes tokens given mid → Reaches (given.or picture) mid last rest →
      Reaches picture tokens last rest

theorem Passes.read_eq {tokens rest : List Token} {given : Option String}
    (h : Passes tokens given rest) (cs : Clauses) :
    ∃ cs' : Clauses, cs.read tokens = cs'.read rest ∧ cs'.picture = given.or cs.picture := by
  cases h with
  | literal => exact ⟨cs, by rw [Clauses.read], rfl⟩
  | redefines hw => exact ⟨_, read_redefines cs hw, rfl⟩
  | @picture w p tokens _ hw hp =>
    have hread : cs.read (.word w :: tokens) =
        { cs with picture := some (keyword p) }.read rest := by
      rw [read_picture cs hw, hp]
    exact ⟨_, hread, rfl⟩
  | usage hw => exact ⟨_, read_usage cs hw, rfl⟩
  | occurs hw hcount =>
    exact ⟨_, read_occurs cs hw (takeOccurs_eq_some_iff.2 hcount), rfl⟩
  | value hw => exact ⟨_, read_value cs hw, rfl⟩
  | @other w _ hw =>
    by_cases husage : keyword w ∈ usageWords
    · exact ⟨_, read_bareUsage cs husage, rfl⟩
    · have hother : keyword w ∉ openers := fun h => (List.mem_append.1 h).elim hw husage
      exact ⟨cs, read_other cs hother, rfl⟩

theorem Stuck.read_eq {tokens : List Token} {e : ClauseError} (h : Stuck tokens e)
    (cs : Clauses) : cs.read tokens = .error e := by
  cases h with
  | picture hw hnone => rw [read_picture cs hw, hnone]
  | @occurs w rest hw hcount =>
    have hnone : takeOccurs rest = none := by
      rw [Option.eq_none_iff_forall_ne_some]
      exact fun x hx => hcount x.1 x.2 (takeOccurs_eq_some_iff.1 hx)
    exact read_occurs_none cs hw hnone

theorem Reaches.read_eq {picture last : Option String} {tokens rest : List Token}
    (h : Reaches picture tokens last rest) {cs : Clauses} (hcs : cs.picture = picture) :
    ∃ cs' : Clauses, cs.read tokens = cs'.read rest ∧ cs'.picture = last := by
  induction h generalizing cs with
  | here => exact ⟨cs, rfl, hcs⟩
  | pass hpass _ ih =>
    obtain ⟨mid, hread, hmid⟩ := hpass.read_eq cs
    obtain ⟨cs', hread', hlast⟩ := ih (hmid.trans (by rw [hcs]))
    exact ⟨cs', hread.trans hread', hlast⟩

/-- The next token begins a clause that cannot be used, or it is passed over. -/
theorem stuck_or_passes (token : Token) (tokens : List Token) :
    (∃ e, Stuck (token :: tokens) e) ∨
      ∃ given rest, Passes (token :: tokens) given rest ∧ rest.length ≤ tokens.length := by
  cases token with
  | literal text => exact .inr ⟨_, _, .literal, Nat.le_refl _⟩
  | word w =>
    by_cases hother : keyword w ∉ clauseWords
    · exact .inr ⟨_, _, .other hother, Nat.le_refl _⟩
    have hcases : keyword w = "REDEFINES" ∨ keyword w ∈ ["PIC", "PICTURE"] ∨
        keyword w = "USAGE" ∨ keyword w = "OCCURS" ∨ keyword w ∈ ["VALUE", "VALUES"] := by
      simpa [clauseWords, or_assoc] using Decidable.not_not.1 hother
    have hskip := length_skipWord_le ["IS"] tokens
    have htake := length_takeWord_le (skipWord ["IS"] tokens)
    rcases hcases with hw | hw | hw | hw | hw
    · exact .inr ⟨_, _, .redefines hw, length_takeWord_le tokens⟩
    · cases hp : takeWord (skipWord ["IS"] tokens) with
      | mk p after =>
        rw [hp] at htake
        cases p with
        | none => exact .inl ⟨_, .picture hw (by rw [hp])⟩
        | some p => exact .inr ⟨_, _, .picture hw hp, Nat.le_trans htake hskip⟩
    · exact .inr ⟨_, _, .usage hw, Nat.le_trans htake hskip⟩
    · cases hcount : takeOccurs tokens with
      | none =>
        refine .inl ⟨_, .occurs hw fun n after hn => ?_⟩
        rw [takeOccurs_eq_some_iff.2 hn] at hcount
        cases hcount
      | some x =>
        exact .inr ⟨_, _, .occurs hw (takeOccurs_eq_some_iff.1 hcount), length_takeOccurs_le hcount⟩
    · have hliteral := length_takeLiteral_le (skipWord ["IS", "ARE"] tokens)
      have hskip := length_skipWord_le ["IS", "ARE"] tokens
      exact .inr ⟨_, _, .value hw, Nat.le_trans hliteral hskip⟩

/-- Reading comes to the end of the tokens or gets stuck. -/
theorem exists_reaches (picture : Option String) (tokens : List Token) :
    ∃ last rest, Reaches picture tokens last rest ∧ (rest = [] ∨ ∃ e, Stuck rest e) :=
  match tokens with
  | [] => ⟨_, _, .here, .inl rfl⟩
  | token :: tokens => by
    rcases stuck_or_passes token tokens with hstuck | ⟨given, mid, hpass, hle⟩
    · exact ⟨_, _, .here, .inr hstuck⟩
    · obtain ⟨last, rest, hreaches, hend⟩ := exists_reaches (given.or picture) mid
      exact ⟨last, rest, .pass hpass hreaches, hend⟩
termination_by tokens.length

section

variable {cs : Clauses} {tokens : List Token}

theorem read_eq_error_iff {e : ClauseError} :
    cs.read tokens = .error e ↔
      ∃ last rest, Reaches cs.picture tokens last rest ∧ Stuck rest e := by
  constructor
  · intro h
    obtain ⟨last, rest, hreaches, hend⟩ := exists_reaches cs.picture tokens
    obtain ⟨cs', hread, -⟩ := hreaches.read_eq rfl
    rw [h] at hread
    rcases hend with rfl | ⟨e', hstuck⟩
    · rw [Clauses.read] at hread
      cases hread
    · rw [hstuck.read_eq] at hread
      cases hread
      exact ⟨last, rest, hreaches, hstuck⟩
  · rintro ⟨last, rest, hreaches, hstuck⟩
    obtain ⟨cs', hread, -⟩ := hreaches.read_eq rfl
    rw [hread, hstuck.read_eq]

theorem exists_read_eq_ok_iff {last : Option String} :
    (∃ cs' : Clauses, cs.read tokens = .ok cs' ∧ cs'.picture = last) ↔
      Reaches cs.picture tokens last [] := by
  constructor
  · rintro ⟨cs', h, rfl⟩
    obtain ⟨last, rest, hreaches, hend⟩ := exists_reaches cs.picture tokens
    obtain ⟨cs'', hread, rfl⟩ := hreaches.read_eq rfl
    rw [h] at hread
    rcases hend with rfl | ⟨e, hstuck⟩
    · rw [Clauses.read] at hread
      cases hread
      exact hreaches
    · rw [hstuck.read_eq] at hread
      cases hread
  · intro h
    obtain ⟨cs', hread, hlast⟩ := h.read_eq rfl
    exact ⟨cs', by rw [hread, Clauses.read], hlast⟩

end

/-! ## Rejections -/

/-- The levels of data description entries. -/
def HasLevel (head : Head) : Prop :=
  (1 ≤ head.levelNumber ∧ head.levelNumber ≤ 49) ∨ head.levelNumber = 88

/-- Why an entry is rejected, with the code of the warning: for its level or, if that is a level,
for the first clause that cannot be used or, if all can, for the last picture. -/
inductive Rejects (head : Head) : Code → Rejection → Prop where
  | level : ¬ HasLevel head →
      Rejects head .malformedEntry
        (.unsupportedLevel (String.ofList [head.level.1, head.level.2]))
  | missing {last : Option String} {rest : List Token} : HasLevel head →
      Reaches none (Token.split head.clauses) last rest → Stuck rest .missingPicture →
      Rejects head .invalidPicture .missingPicture
  | occurs {last : Option String} {rest : List Token} : HasLevel head →
      Reaches none (Token.split head.clauses) last rest → Stuck rest .invalidOccurs →
      Rejects head .invalidOccurs .invalidOccurs
  | picture {text : String} {cause : Picture.Error} : HasLevel head →
      Reaches none (Token.split head.clauses) (some text) [] →
      Picture.analyze text = .error cause →
      Rejects head .invalidPicture (.invalidPicture text cause)

theorem isLevel_iff (head : Head) : isLevel head.levelNumber = true ↔ HasLevel head := by
  simp [isLevel, HasLevel]

theorem Rejects.code_eq {head : Head} {code : Code} {r : Rejection} (h : Rejects head code r) :
    r.code = code := by
  cases h <;> rfl

/-- What an entry of the given level declares by the tokens of its clauses, or why it is
rejected. -/
def Head.declare (head : Head) (level : Nat) (tokens : List Token) (span : Span) :
    Except Rejection Descriptor :=
  match ({} : Clauses).read tokens with
  | .error .missingPicture => .error .missingPicture
  | .error .invalidOccurs => .error .invalidOccurs
  | .ok clauses =>
    let descriptor (shape : Option Picture) : Descriptor := {
      level := level
      name := String.ofList head.name
      kind := kindOf level clauses
      picture := clauses.picture
      shape := shape
      usage := clauses.usage
      occurs := clauses.occurs
      redefines := clauses.redefines
      value := clauses.value
      span := span }
    match clauses.picture with
    | none => .ok (descriptor none)
    | some text =>
      match Picture.analyze text with
      | .ok shape => .ok (descriptor (some shape))
      | .error cause => .error (.invalidPicture text cause)

theorem Head.describe_eq (head : Head) (span : Span) :
    head.describe span =
      if isLevel head.levelNumber then
        head.declare head.levelNumber (Token.split head.clauses) span
      else .error (.unsupportedLevel (String.ofList [head.level.1, head.level.2])) := by
  unfold Head.describe Head.declare
  cases hlevel : isLevel head.levelNumber with
  | false => simp only [hlevel]; rfl
  | true =>
    cases hread : ({} : Clauses).read (Token.split head.clauses) with
    | error e => cases e <;> simp only [hlevel] <;> rfl
    | ok clauses =>
      cases hpicture : clauses.picture with
      | none => simp only [hlevel, pure_bind, hpicture]; rfl
      | some text =>
        cases hanalyze : Picture.analyze text with
        | ok shape => simp only [hlevel, pure_bind, hpicture, hanalyze]; rfl
        | error cause => simp only [hlevel, pure_bind, hpicture, hanalyze]; rfl

theorem Head.describe_eq_error_iff {head : Head} {span : Span} {r : Rejection} :
    head.describe span = .error r ↔ ∃ code, Rejects head code r := by
  rw [Head.describe_eq]
  constructor
  · intro h
    split at h
    · rename_i hlevel
      rw [isLevel_iff] at hlevel
      unfold Head.declare at h
      split at h
      · rename_i hread
        obtain ⟨last, rest, hreaches, hstuck⟩ := read_eq_error_iff.1 hread
        cases h
        exact ⟨_, .missing hlevel hreaches hstuck⟩
      · rename_i hread
        obtain ⟨last, rest, hreaches, hstuck⟩ := read_eq_error_iff.1 hread
        cases h
        exact ⟨_, .occurs hlevel hreaches hstuck⟩
      · rename_i clauses hread
        dsimp only at h
        split at h
        · cases h
        · rename_i text hpicture
          split at h
          · cases h
          · rename_i hanalyze
            cases h
            have hreaches := exists_read_eq_ok_iff.1 ⟨clauses, hread, hpicture⟩
            exact ⟨_, .picture hlevel hreaches hanalyze⟩
    · rename_i hlevel
      rw [isLevel_iff] at hlevel
      cases h
      exact ⟨_, .level hlevel⟩
  · rintro ⟨code, h⟩
    cases h with
    | level hlevel => exact if_neg fun h => hlevel ((isLevel_iff head).1 h)
    | missing hlevel hreaches hstuck =>
      have hread : ({} : Clauses).read (Token.split head.clauses) = .error .missingPicture :=
        read_eq_error_iff.2 ⟨_, _, hreaches, hstuck⟩
      rw [if_pos ((isLevel_iff head).2 hlevel), Head.declare, hread]
    | occurs hlevel hreaches hstuck =>
      have hread : ({} : Clauses).read (Token.split head.clauses) = .error .invalidOccurs :=
        read_eq_error_iff.2 ⟨_, _, hreaches, hstuck⟩
      rw [if_pos ((isLevel_iff head).2 hlevel), Head.declare, hread]
    | @picture text _ hlevel hreaches hanalyze =>
      have hok : ∃ clauses : Clauses, ({} : Clauses).read (Token.split head.clauses) =
          .ok clauses ∧ clauses.picture = some text := exists_read_eq_ok_iff.2 hreaches
      obtain ⟨clauses, hread, hpicture⟩ := hok
      rw [if_pos ((isLevel_iff head).2 hlevel), Head.declare, hread]
      simp only [hpicture, hanalyze]

/-- There is at most one reason. -/
theorem Rejects.unique {head : Head} {code code' : Code} {r r' : Rejection}
    (h : Rejects head code r) (h' : Rejects head code' r') : code = code' ∧ r = r' := by
  have hr : head.describe (Span.of 0 0) = .error r := Head.describe_eq_error_iff.2 ⟨code, h⟩
  rw [Head.describe_eq_error_iff.2 ⟨code', h'⟩] at hr
  cases hr
  exact ⟨h.code_eq.symm.trans h'.code_eq, rfl⟩

/-! ## A scan that takes nothing for granted -/

theorem readNat?_level {tens ones : Char} (htens : tens.isDigit = true)
    (hones : ones.isDigit = true) :
    Text.readNat? 255 [tens, ones] =
      some (10 * (tens.toNat - '0'.toNat) + (ones.toNat - '0'.toNat)) := by
  have hdigit : ∀ c : Char, c.isDigit = true → c.toNat - 48 ≤ 9 := by
    intro c hc
    simp only [Char.isDigit, Bool.and_eq_true, decide_eq_true_eq] at hc
    have hle : c.toNat ≤ 57 := UInt32.le_iff_toNat_le.1 hc.2
    omega
  have htens' := hdigit tens htens
  have hones' := hdigit ones hones
  unfold Text.readNat?
  split
  · rename_i heq
    cases heq
    cases htens
  · simp [Text.isDigits, Text.digitsValue, htens, hones]
    omega

/-- Reads one entry as `scan` does, but it may turn out that the level is no number of 8 bits or
that the clauses are no tokens. -/
def strictScan (text : List Char) (span : Span) : Except Diagnostic (Option Descriptor) :=
  match Head.split? text with
  | none => .ok none
  | some head =>
    let name := String.ofList head.name
    let digits := String.ofList [head.level.1, head.level.2]
    match Text.readNat? 255 [head.level.1, head.level.2] with
    | none =>
      .error (.about .malformedEntry s!"invalid level number `{digits}`" span "entry skipped")
    | some level =>
      if isLevel level then
        match Token.readAll? head.clauses with
        | none =>
          .error (.about .malformedEntry s!"malformed clauses in entry `{name}`" span
            "entry skipped")
        | some (tokens, _) =>
          match head.declare level tokens span with
          | .ok d => .ok (some d)
          | .error r => .error (r.diagnostic name span)
      else .error ((Rejection.unsupportedLevel digits).diagnostic name span)

theorem readNat?_of_split? {text : List Char} {head : Head} (h : Head.split? text = some head) :
    Text.readNat? 255 [head.level.1, head.level.2] = some head.levelNumber := by
  obtain ⟨front, hwritten, -, -⟩ := exists_of_split? h
  cases hwritten with
  | mk _ htens hones _ _ => exact readNat?_level htens hones

theorem strictScan_eq (text : List Char) (span : Span) : strictScan text span = scan text span := by
  unfold strictScan scan
  cases hsplit : Head.split? text with
  | none => rfl
  | some head =>
    obtain ⟨rest, hread, -⟩ := Token.exists_readAll? head.clauses
    simp only [readNat?_of_split? hsplit, hread, Head.describe_eq]
    cases isLevel head.levelNumber <;> rfl

/-! ## The four reasons -/

/-- Every text is read into tokens, with nothing but blanks left and with every significant
character in one place.  So an entry is rejected for the reasons of `Rejects` alone. -/
theorem scan_rejects (text : List Char) (span : Span) :
    ((∃ rest, Token.readAll? text = some (Token.split text, rest) ∧ Text.allBlank rest = true) ∧
      significant none text = (Token.split text).flatMap Token.marked) ∧
    ∀ head, Head.split? text = some head →
      (Text.readNat? 255 [head.level.1, head.level.2] = some head.levelNumber ∧
        (∃ rest, Token.readAll? head.clauses = some (Token.split head.clauses, rest)) ∧
        strictScan text span = scan text span) ∧
      ∀ d, scan text span = .error d ↔ ∃ code r, Rejects head code r ∧
        d = r.diagnostic (String.ofList head.name) span ∧ d.code = some code := by
  refine ⟨⟨Token.exists_readAll? text, Token.significant_eq text⟩, fun head hsplit => ⟨?_, ?_⟩⟩
  · obtain ⟨rest, hread, -⟩ := Token.exists_readAll? head.clauses
    exact ⟨readNat?_of_split? hsplit, ⟨rest, hread⟩, strictScan_eq text span⟩
  · intro d
    simp only [scan, hsplit]
    constructor
    · intro h
      split at h
      · cases h
      · rename_i r hr
        cases h
        obtain ⟨code, hrejects⟩ := Head.describe_eq_error_iff.1 hr
        exact ⟨code, r, hrejects, rfl, congrArg some hrejects.code_eq⟩
    · rintro ⟨code, r, hrejects, rfl, -⟩
      rw [Head.describe_eq_error_iff.2 ⟨code, hrejects⟩]

/-- A repetition without a count before a picture without a word. -/
theorem scan_rejects_zero_count :
    ∃ d, scan "05 A PIC X OCCURS 0 PIC".toList (Span.of 0 23) = .error d ∧
      d.code = some .invalidOccurs := by
  have hsplit : Head.split? "05 A PIC X OCCURS 0 PIC".toList =
      some ⟨('0', '5'), ['A'], " PIC X OCCURS 0 PIC".toList⟩ := by decide +kernel
  have htokens : Token.split " PIC X OCCURS 0 PIC".toList =
      [.word "PIC".toList, .word ['X'], .word "OCCURS".toList, .word ['0'],
        .word "PIC".toList] := by decide +kernel
  have hcount : ∀ n after, ¬ IsCount [.word ['0'], .word "PIC".toList] n after := by
    intro n after hn
    have hnone : takeOccurs [.word ['0'], .word "PIC".toList] = none := by decide +kernel
    rw [takeOccurs_eq_some_iff.2 hn] at hnone
    cases hnone
  have hreaches : Reaches none (Token.split " PIC X OCCURS 0 PIC".toList) (some "X")
      [.word "OCCURS".toList, .word ['0'], .word "PIC".toList] := by
    rw [htokens]
    exact .pass (.picture (by decide) rfl) .here
  have hrejects : Rejects ⟨('0', '5'), ['A'], " PIC X OCCURS 0 PIC".toList⟩ .invalidOccurs
      .invalidOccurs :=
    .occurs (.inl (by decide)) hreaches (.occurs (by decide) hcount)
  refine ⟨Rejection.invalidOccurs.diagnostic "A" (Span.of 0 23), ?_, rfl⟩
  exact (((scan_rejects _ _).2 _ hsplit).2 _).2 ⟨_, _, hrejects, rfl, rfl⟩

end DataDivision.Entry
