import DataDivision.Proofs.Entry.Breaking
import DataDivision.Proofs.Entry.Rejections

/-!
Tokens that are passed over.

A token that begins no clause is passed over where a clause may begin.  Behind the keyword of a
clause it is not: there it is the operand.  So tokens of no clause may stand between clauses at will
(`SameClauses`), and entries that differ in such tokens alone are read alike
(`scan_eq_of_sameClauses`).
-/

namespace DataDivision.Entry

/-- The token begins no clause. -/
def Token.isIdle : Token → Bool
  | .word w => !openers.contains (keyword w)
  | .literal _ => true

/-- The operand, with the optional words before it, that the keyword `w` asks for.  A count without
an upper bound is not complete, since a bound may follow. -/
inductive Completes (w : List Char) : List Token → Prop
  | bareUsage : keyword w ∈ usageWords → Completes w []
  | redefines {t : Token} : keyword w = "REDEFINES" → Completes w [t]
  | word {ts : List Token} {t : Token} : keyword w ∈ ["PIC", "PICTURE", "USAGE"] →
    skipWord ["IS"] ts = [t] → Completes w ts
  | value {ts : List Token} {t : Token} : keyword w ∈ ["VALUE", "VALUES"] →
    skipWord ["IS", "ARE"] ts = [t] → Completes w ts
  | bounds {least most : Token} {upto : List Char} : keyword w = "OCCURS" → Spells upto "TO" →
    Completes w [least, .word upto, most]

/-- The same clauses, with any tokens of no clause between them. -/
inductive SameClauses : List Token → List Token → Prop
  | refl (ts : List Token) : SameClauses ts ts
  | left {t : Token} {ts ts' : List Token} : t.isIdle = true → SameClauses ts ts' →
    SameClauses (t :: ts) ts'
  | right {t : Token} {ts ts' : List Token} : t.isIdle = true → SameClauses ts ts' →
    SameClauses ts (t :: ts')
  | clause {w : List Char} {operand ts ts' : List Token} : Completes w operand →
    SameClauses ts ts' → SameClauses (.word w :: (operand ++ ts)) (.word w :: (operand ++ ts'))
  | count {w : List Char} {t : Token} {ts ts' : List Token} : keyword w = "OCCURS" →
    ¬ BeginsTo ts → ¬ BeginsTo ts' → SameClauses ts ts' →
    SameClauses (.word w :: t :: ts) (.word w :: t :: ts')

/-! ## Reading -/

theorem read_idle (cs : Clauses) {t : Token} (h : t.isIdle = true) (ts : List Token) :
    cs.read (t :: ts) = cs.read ts := by
  cases t with
  | literal text => rw [Clauses.read]
  | word w =>
    simp only [Token.isIdle, Bool.not_eq_true', List.contains_eq_mem, decide_eq_false_iff_not] at h
    exact read_other cs h

theorem skipWord_append {ks : List String} {ts : List Token} {t : Token}
    (h : skipWord ks ts = [t]) (rest : List Token) : skipWord ks (ts ++ rest) = t :: rest := by
  unfold skipWord at h
  split at h
  · rename_i w ts
    rw [List.cons_append, skipWord]
    split at h
    · rename_i hw
      rw [if_pos hw, h]
      rfl
    · rename_i hw
      rw [if_neg hw, ← List.cons_append, h]
      rfl
  · rename_i hword
    subst h
    cases t with
    | word w => exact absurd rfl (hword w [])
    | literal text => rfl

/-- Whatever stands behind a token, it is taken for a word or it is not, and reading goes on behind
it. -/
theorem exists_takeWord (t : Token) : ∃ taken, ∀ ts, (takeWord (t :: ts)).1 = taken ∧
    ∀ cs : Clauses, cs.read (takeWord (t :: ts)).2 = cs.read ts := by
  cases t with
  | word w => exact ⟨some w, fun ts => ⟨rfl, fun cs => rfl⟩⟩
  | literal text => exact ⟨none, fun ts => ⟨rfl, fun cs => read_idle cs rfl ts⟩⟩

/-- The number that a token writes. -/
def Token.number? : Token → Option Nat
  | .word w => Text.readNat? Text.maxWord32 (dropPeriod w)
  | .literal _ => none

theorem takeNumber_cons (t : Token) (ts : List Token) :
    takeNumber (t :: ts) = t.number?.map (·, ts) := by
  cases t <;> rfl

/-- The count that a token writes, and what follows it. -/
theorem takeOccurs_single {t : Token} {ts : List Token} (h : ¬ BeginsTo ts) :
    takeOccurs (t :: ts) = (t.number?.filter (0 < ·)).map (·, skipWord ["TIMES"] ts) := by
  rw [takeOccurs, takeNumber_cons]
  cases t.number? with
  | none => rfl
  | some n =>
    have hupper : takeUpper n ts = some (n, ts) := takeUpper_eq_some_iff.2 (.inl ⟨h, rfl, rfl⟩)
    by_cases hn : 0 < n <;> simp [hupper, hn, Option.filter]

theorem takeOccurs_bounds {least most : Token} {upto : List Char} (h : Spells upto "TO")
    (ts : List Token) : takeOccurs (least :: .word upto :: most :: ts) =
      (least.number?.bind fun _ => most.number?.filter (0 < ·)).map
        (·, skipWord ["TIMES"] ts) := by
  have hto : upto.map Char.toUpper = ['T', 'O'] := h
  rw [takeOccurs, takeNumber_cons]
  cases least.number? with
  | none => rfl
  | some m =>
    simp only [Option.map_some, takeUpper, hto, if_true, takeNumber_cons, Option.bind_some]
    cases most.number? with
    | none => rfl
    | some n => by_cases hn : 0 < n <;> simp [hn, Option.filter]

/-- A repetition is read up to its count, and reading goes on behind it. -/
theorem read_occurs_congr (cs : Clauses) {w : List Char} (hw : keyword w = "OCCURS")
    {count : Option Nat} {rest rest' ts ts' : List Token}
    (h : takeOccurs rest = count.map (·, skipWord ["TIMES"] ts))
    (h' : takeOccurs rest' = count.map (·, skipWord ["TIMES"] ts'))
    (hts : ∀ cs : Clauses, cs.read ts = cs.read ts') :
    cs.read (.word w :: rest) = cs.read (.word w :: rest') := by
  have htimes : ∀ (cs : Clauses) (ts : List Token),
      cs.read (skipWord ["TIMES"] ts) = cs.read ts := by
    intro cs ts
    unfold skipWord
    split
    · split
      · rename_i v rest hv
        have hidle : (Token.word v).isIdle = true := by
          have hkeyword : keyword v = "TIMES" := by simpa using hv
          rw [Token.isIdle, hkeyword]
          decide
        exact (read_idle cs hidle rest).symm
      · rfl
    · rfl
  cases count with
  | none => rw [read_occurs_none cs hw h, read_occurs_none cs hw h']
  | some n => rw [read_occurs cs hw h, read_occurs cs hw h', htimes, htimes, hts]

/-- A clause that is complete is read the same whatever stands behind it. -/
theorem Completes.read_congr {w : List Char} {operand ts ts' : List Token}
    (h : Completes w operand) (hts : ∀ cs : Clauses, cs.read ts = cs.read ts') (cs : Clauses) :
    cs.read (.word w :: (operand ++ ts)) = cs.read (.word w :: (operand ++ ts')) := by
  cases h with
  | bareUsage hw =>
    rw [List.nil_append, List.nil_append, read_bareUsage cs hw, read_bareUsage cs hw, hts]
  | @redefines t hw =>
    obtain ⟨taken, htaken⟩ := exists_takeWord t
    rw [List.singleton_append, List.singleton_append, read_redefines cs hw, read_redefines cs hw,
      (htaken ts).1, (htaken ts').1, (htaken ts).2, (htaken ts').2, hts]
  | @word _ t hw hskip =>
    obtain ⟨taken, htaken⟩ := exists_takeWord t
    have hcases : keyword w ∈ ["PIC", "PICTURE"] ∨ keyword w = "USAGE" := by
      simpa [or_assoc] using hw
    rcases hcases with hw | hw
    · rw [read_picture cs hw, read_picture cs hw, skipWord_append hskip, skipWord_append hskip,
        (htaken ts).1, (htaken ts').1]
      cases taken with
      | none => rfl
      | some p => exact ((htaken ts).2 _).trans ((hts _).trans ((htaken ts').2 _).symm)
    · rw [read_usage cs hw, read_usage cs hw, skipWord_append hskip, skipWord_append hskip,
        (htaken ts).1, (htaken ts').1, (htaken ts).2, (htaken ts').2, hts]
  | @value _ t hw hskip =>
    rw [read_value cs hw, read_value cs hw, skipWord_append hskip, skipWord_append hskip]
    cases t <;> exact hts _
  | bounds hw hto =>
    exact read_occurs_congr cs hw (takeOccurs_bounds hto ts) (takeOccurs_bounds hto ts') hts

theorem SameClauses.read_eq {ts ts' : List Token} (h : SameClauses ts ts') (cs : Clauses) :
    cs.read ts = cs.read ts' := by
  induction h generalizing cs with
  | refl => rfl
  | left hidle _ ih => rw [read_idle cs hidle, ih]
  | right hidle _ ih => rw [read_idle cs hidle, ih]
  | clause hcompletes _ ih => exact hcompletes.read_congr ih cs
  | count hw hto hto' _ ih =>
    exact read_occurs_congr cs hw (takeOccurs_single hto) (takeOccurs_single hto') ih

/-! ## Entries -/

/-- The level and the name that a text begins with. -/
def heading? (text : List Char) : Option ((Char × Char) × List Char) :=
  (outline? text).map fun o => (o.level, o.name)

/-- The tokens behind the level and the name. -/
def clauseTokens (text : List Char) : List Token := ((outline? text).map (·.tokens)).getD []

/-- Entries with the same level, the same name and the same clauses are read alike. -/
theorem scan_eq_of_sameClauses {text text' : List Char} (hheading : heading? text = heading? text')
    (hclauses : SameClauses (clauseTokens text) (clauseTokens text')) : scan text = scan text' := by
  refine scan_congr_of_readsAs ?_
  unfold heading? at hheading
  unfold clauseTokens at hclauses
  cases ho : outline? text with
  | none =>
    rw [ho, Option.map_none, eq_comm, Option.map_eq_none_iff] at hheading
    rw [hheading]
    exact .none
  | some o =>
    rw [ho, Option.map_some, eq_comm, Option.map_eq_some_iff] at hheading
    obtain ⟨o', ho', hsame⟩ := hheading
    obtain ⟨hlevel, hname⟩ := Prod.mk.inj hsame
    rw [ho, ho'] at hclauses
    rw [ho']
    exact .some ⟨hlevel.symm, hname.symm, hclauses.read_eq {}⟩

end DataDivision.Entry
