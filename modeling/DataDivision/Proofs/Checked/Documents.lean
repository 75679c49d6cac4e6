import DataDivision.Proofs.Checked.Rules

/-!
Numbers in documents.

A reader asks for one setting after the other, so what holds of each that is read, and of each
default, holds of what the reader makes of them (`Yields.bind`, `yields_setting`).  Integers are
read as signed 64-bit numbers, so every configuration that comes from a document holds no others
(`fits_of_ofDocument?`).
-/

namespace DataDivision

section

variable {α β : Type} {p : α → Prop} {q : β → Prop}

/-- All that is read from documents satisfies `p`. -/
def Document.Reads (read : Document → Option α) (p : α → Prop) : Prop :=
  ∀ d a, read d = some a → p a

/-- All that is read from settings satisfies `p`. -/
def SectionReader.Yields (reader : SectionReader α) (p : α → Prop) : Prop :=
  ∀ settings a rest, reader settings = some (a, rest) → p a

namespace Document

theorem reads_asInt64? : Reads asInt64? IsInt64 := by
  intro d n h
  cases d with
  | int m =>
    simp only [asInt64?, asInt?] at h
    split at h
    · exact Option.some.inj h ▸ ‹_›
    · cases h
  | _ => cases h

theorem Reads.optional {read : Document → Option α} (h : Reads read p) :
    Reads (asOptional? read) fun o => ∀ a ∈ o, p a := by
  intro d o hd a ha
  have hread : ∀ x : Document, (read x).map some = some o → p a := by
    intro x hx
    obtain ⟨b, hb, rfl⟩ := Option.map_eq_some_iff.1 hx
    exact Option.some.inj ha ▸ h x b hb
  cases d with
  | null =>
    obtain rfl := Option.some.inj hd
    cases ha
  | _ => exact hread _ hd

theorem Reads.list {read : Document → Option α} (h : Reads read p) :
    Reads (asList? read) fun l => ∀ a ∈ l, p a := by
  intro d l hd
  cases d with
  | list items =>
    replace hd : items.mapM read = some l := hd
    induction items generalizing l with
    | nil =>
      obtain rfl := Option.some.inj hd
      simp
    | cons x rest ih =>
      rw [List.mapM_cons] at hd
      obtain ⟨a, ha, hd⟩ := Option.bind_eq_some_iff.1 hd
      obtain ⟨more, hmore, hd⟩ := Option.bind_eq_some_iff.1 hd
      obtain rfl := Option.some.inj hd
      exact List.forall_mem_cons.2 ⟨h x a ha, ih more hmore⟩
  | _ => cases hd

end Document

namespace SectionReader

variable {reader : SectionReader α} {next : α → SectionReader β}

theorem Yields.bind (h : Yields reader p) (hn : ∀ a, p a → Yields (next a) q) :
    Yields (reader >>= next) q := by
  intro settings b rest hb
  obtain ⟨⟨a, left⟩, ha, hb⟩ := Option.bind_eq_some_iff.1 hb
  exact hn a (h settings a left ha) left b rest hb

theorem Yields.pure {a : α} (h : p a) : Yields (pure a) p := by
  intro settings b rest hb
  obtain ⟨rfl, -⟩ := Prod.mk.inj (Option.some.inj hb)
  exact h

/-- What comes first may be anything. -/
theorem Yields.anyway (hn : ∀ a, Yields (next a) q) : Yields (reader >>= next) q :=
  .bind (p := fun _ => True) (fun _ _ _ _ => trivial) fun a _ => hn a

/-- A setting is its default or what is read for it. -/
theorem yields_setting {name : String} {read : Document → Option α} {default : α}
    (h : Document.Reads read p) (hd : p default) : Yields (setting name read default) p := by
  intro settings a rest ha
  cases settings with
  | named entries =>
    simp only [setting] at ha
    split at ha
    · obtain ⟨rfl, -⟩ := Prod.mk.inj (Option.some.inj ha)
      exact hd
    · obtain ⟨b, hb, hba⟩ := Option.map_eq_some_iff.1 ha
      obtain ⟨rfl, -⟩ := Prod.mk.inj hba
      exact h _ b hb
  | ordered items =>
    cases items with
    | nil =>
      obtain ⟨rfl, -⟩ := Prod.mk.inj (Option.some.inj ha)
      exact hd
    | cons d items =>
      obtain ⟨b, hb, hba⟩ := Option.map_eq_some_iff.1 ha
      obtain ⟨rfl, -⟩ := Prod.mk.inj hba
      exact h d b hb

theorem Yields.reads (h : Yields reader p) (surplus : Surplus) :
    Document.Reads (Document.asSection? surplus reader) p := by
  intro d a hd
  obtain ⟨settings, -, hd⟩ := Option.bind_eq_some_iff.1 hd
  obtain ⟨⟨b, rest⟩, hb, hd⟩ := Option.bind_eq_some_iff.1 hd
  dsimp only at hd
  split at hd
  · cases hd
  · exact Option.some.inj hd ▸ h settings b rest hb

end SectionReader

end

namespace Rules

open Document SectionReader

theorem FieldTest.yields_reader : Yields reader Fits := by
  have hint := reads_asInt64?.optional
  refine .anyway fun name => ?_
  refine .bind (yields_setting hint (by simp)) fun start hstart => ?_
  refine .bind (yields_setting hint (by simp)) fun length hlength => ?_
  exact .anyway fun value => .anyway fun recordType => .pure ⟨hstart, hlength⟩

theorem RecordTypeField.yields_reader (surplus : Surplus) : Yields (reader surplus) Fits := by
  have hint := reads_asInt64?.optional
  refine .bind (yields_setting hint (by simp)) fun start hstart => ?_
  refine .bind (yields_setting hint (by simp)) fun length hlength => ?_
  iterate 11 refine .anyway fun _ => ?_
  refine .bind (yields_setting (FieldTest.yields_reader.reads surplus).list (by simp)) ?_
  exact fun tests htests => .pure ⟨hstart, hlength, htests⟩

theorem LayoutGeneration.yields_reader :
    Yields reader fun layout => IsInt64 layout.startPosition := by
  refine .anyway fun strategy => .anyway fun naming => ?_
  refine .bind (yields_setting reads_asInt64? isInt64_one) fun start hstart => ?_
  exact .anyway fun _ => .anyway fun _ => .pure hstart

/-- The integers of a configuration that is read from a document are signed 64-bit numbers. -/
theorem Config.fits_of_ofDocument? {surplus : Surplus} {d : Document} {config : Config}
    (h : ofDocument? surplus d = some config) : config.Fits := by
  have hfield := ((RecordTypeField.yields_reader surplus).reads surplus).optional
  have hlayout := LayoutGeneration.yields_reader.reads surplus
  have hconfig : Yields (reader surplus) Fits := by
    refine .anyway fun ruleType => ?_
    refine .bind (yields_setting hfield (by simp)) fun field hf => ?_
    refine .anyway fun processing => ?_
    refine .bind (yields_setting hlayout isInt64_one) fun layout hstart => ?_
    exact .anyway fun validation => .pure ⟨hstart, hf⟩
  obtain ⟨entries, -, h⟩ := Option.bind_eq_some_iff.1 h
  obtain ⟨⟨read, rest⟩, hread, h⟩ := Option.bind_eq_some_iff.1 h
  exact Option.some.inj h ▸ hconfig _ read rest hread

end Rules

end DataDivision
