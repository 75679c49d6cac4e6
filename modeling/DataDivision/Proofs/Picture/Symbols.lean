import DataDivision.Proofs.Picture.Grammar

/-!
The characters of accepted pictures.

A picture that is accepted is made of picture symbols and of counts in parentheses, and letters
count the same in either case.
-/

namespace DataDivision.Picture

/-- The symbols that a picture may be made of. -/
def isSymbol (c : Char) : Bool :=
  Tally.isEditing c || ['9', 'X', 'A', 'V', 'P', 'S', 'C', 'R', 'D'].contains c

/-- A character of a count: a digit or a parenthesis. -/
def isCountChar (c : Char) : Bool := c.isDigit || c == '(' || c == ')'

theorem IsCount.isCountChar {count : List Char} {n : Nat} (h : IsCount count n) :
    ∀ c ∈ count, isCountChar c = true := by
  obtain ⟨digits, rfl, hdigits, -⟩ := h
  simp only [Text.isDigits, Bool.and_eq_true, List.all_eq_true] at hdigits
  intro c hc
  simp only [List.mem_cons, List.mem_append, List.not_mem_nil, or_false] at hc
  rcases hc with rfl | hc | rfl
  · decide
  · simp [Picture.isCountChar, hdigits.2 c hc]
  · decide

theorem Element.IsKnown.isSymbol {e : Element} (h : e.IsKnown) :
    ∀ run ∈ e.runs, isSymbol run.symbol = true := by
  cases e with
  | symbol run =>
    have hall : Element.symbols.all Picture.isSymbol = true := by decide
    exact List.forall_mem_singleton.2 (List.all_eq_true.1 hall _ h)
  | credit => decide
  | debit => decide

theorem Run.IsWritten.mem {run : Run} {text : List Char} (h : run.IsWritten text) :
    ∀ c ∈ text, isCountChar c = true ∨ c = run.symbol := by
  cases h with
  | plain => simp
  | counted _ _ hcount _ _ =>
    exact List.forall_mem_cons.2 ⟨.inr rfl, fun c hc => .inl (hcount.isCountChar c hc)⟩

theorem AreWritten.mem {runs : List Run} {text : List Char} (h : AreWritten runs text) :
    ∀ c ∈ text, isCountChar c = true ∨ ∃ run ∈ runs, c = run.symbol := by
  induction h with
  | nil => simp
  | cons hrun _ ih =>
    refine List.forall_mem_append.2 ⟨fun c hc => ?_, fun c hc => ?_⟩
    · exact (hrun.mem c hc).imp_right fun hsymbol => ⟨_, List.mem_cons_self, hsymbol⟩
    · refine (ih c hc).imp_right ?_
      rintro ⟨run, hmem, hsymbol⟩
      exact ⟨run, List.mem_cons_of_mem _ hmem, hsymbol⟩

/-- An accepted picture, trimmed and in upper case, is not empty and made of symbols and counts. -/
theorem chars_of_analyzeChars {cs : List Char} {p : Picture} (h : analyzeChars cs = .ok p) :
    Text.trim cs ≠ [] ∧
      ∀ c ∈ (Text.trim cs).map Char.toUpper, isCountChar c = true ∨ isSymbol c = true := by
  refine ⟨fun hnil => (analyzeChars_eq_ok_iff.1 h).1 (by rw [hnil]; rfl), fun c hc => ?_⟩
  obtain ⟨elements, hmade, -⟩ := exists_isMadeOf_of_analyzeChars h
  refine (hmade.written.mem c hc).imp_right ?_
  rintro ⟨run, hrun, rfl⟩
  obtain ⟨e, he, hrun⟩ := List.mem_flatMap.1 hrun
  exact (hmade.known e he).isSymbol run hrun

/-- Letters count the same in either case. -/
theorem analyze_asciiUpper (text : String) : analyze (Text.asciiUpper text) = analyze text := by
  simp only [analyze, Text.asciiUpper, String.toList_ofList, analyzeChars, Text.trim_map_toUpper,
    Text.map_toUpper_toUpper]

end DataDivision.Picture
