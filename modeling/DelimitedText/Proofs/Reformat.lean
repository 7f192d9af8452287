import DelimitedText.Proofs.Grammar

/-!
# Writing back what was read

A list of fields need not survive being written and read, since a literal in a quoted field is taken for a line break.
Fields that come from a line do survive (`split_format_split`): a bare cell is written bare again, and decoding has left
no literal in the value of a quoted one (`not_hasLiteral_decodeLiterals`).

The line of a list survives in any case (`format_split_format`). What is read in place of a field is written like the
field (`fieldForm_reread`): a literal and the line break that it names have the same encoding
(`encodeBreaks_decodeLiterals`), and either forces quotes, even if the literal held the only delimiter
(`needsQuoting_decodeLiterals`).
-/

namespace DelimitedText

/-! ## Decoding leaves no literal -/

/-- The first character of a decoded text is a line break or that of the text. -/
theorem head?_decodeLiterals {value : List Char} {c : Char} (h : (decodeLiterals value).head? = some c) :
    isLineBreak c = true ∨ value.head? = some c := by
  unfold decodeLiterals at h
  split at h
  · cases h
    exact .inl rfl
  · cases h
    exact .inl rfl
  · exact .inr h
  · cases h

theorem decodeLiterals_decodeLiterals (value : List Char) :
    decodeLiterals (decodeLiterals value) = decodeLiterals value := by
  fun_induction decodeLiterals value with
  | case1 rest ih => rw [decodeLiterals_cons (by decide), ih]
  | case2 rest ih => rw [decodeLiterals_cons (by decide), ih]
  | case3 c rest hn hr ih =>
    by_cases hc : c = '\\'
    · subst hc
      -- the letter that would make a literal of the backslash was behind it before decoding
      have letter : ∀ x, (∀ tail, '\\' = '\\' → rest = x :: tail → False) → isLineBreak x = false →
          (decodeLiterals rest).head? ≠ some x := by
        intro x hx hb h
        rcases head?_decodeLiterals h with hb' | h
        · rw [hb] at hb'
          cases hb'
        · obtain ⟨tail, ht⟩ := List.head?_eq_some_iff.1 h
          exact hx tail rfl ht
      rw [decodeLiterals_backslash (letter 'n' hn (by decide)) (letter 'r' hr (by decide)), ih]
    · rw [decodeLiterals_cons hc, ih]
  | case4 => rfl

theorem not_hasLiteral_decodeLiterals (value : List Char) : ¬ HasLiteral (decodeLiterals value) :=
  (decodeLiterals_eq_self_iff _).1 (decodeLiterals_decodeLiterals value)

/-! ## Fields of a line -/

/-- The value of a cell is read back as it is. -/
theorem reread_value {d : Char} {cell : Cell} (h : cell.IsValid d) (p : LineBreaks) :
    reread d p p (cell.value p) = cell.value p := by
  cases cell with
  | bare text =>
    rw [reread.eq_def, Cell.value, Cell.isValid_bare_iff.1 h]
    rfl
  | quoted body =>
    cases p with
    | raw => simp [reread]
    | escaped => exact (reread_escaped_eq_self_iff d _).2 fun _ => not_hasLiteral_decodeLiterals _

theorem rereadFields_cellFields {d : Char} {cells : List Cell} (h : ∀ cell ∈ cells, cell.IsValid d) (p : LineBreaks) :
    rereadFields d p p (cellFields p cells) = cellFields p cells := by
  unfold rereadFields cellFields
  rw [List.map_map]
  refine List.map_congr_left fun cell hc => ?_
  rw [Function.comp_apply, String.toList_ofList, reread_value (h cell hc)]

/-- **Reading, writing and reading.** Fields that were split off a line come back from the line that they are formatted
as, whatever the delimiter: a line that is read and written again keeps its fields, although a list of fields that is
written need not be the one that is read. -/
theorem split_format_split {text : String} {d : Char} {p : LineBreaks} {fields : List String}
    (h : splitLine text d p = .ok fields) (hf : fields ≠ [""]) :
    splitLine (formatLine fields d p) d p = .ok fields := by
  by_cases ht : text = ""
  · subst ht
    cases h
    rfl
  obtain ⟨cells, spells, rfl, single⟩ := exists_spells_of_splitLine h ht
  have several : 1 < (cellFields p cells).length → d ≠ quote := by
    intro hlen hd
    rw [cellFields, List.length_map, single hd] at hlen
    omega
  rw [splitLine_formatLine hf several, rereadFields_cellFields spells.valid]

/-- A backslash in front of a literal, doubled quotes, and a literal that stands bare; and the quote as the delimiter,
which it never is. -/
theorem split_format_split_backslashes :
    (splitLine "\"\\\\n\"\",\",\\n" ',' = .ok ["\\\n\",", "\\n"] ∧ ["\\\n\",", "\\n"] ≠ [""] ∧
      splitLine (formatLine ["\\\n\",", "\\n"] ',') ',' = .ok ["\\\n\",", "\\n"]) ∧
    (splitLine "\"a\"\"\"" '"' = .ok ["a\""] ∧ ["a\""] ≠ [""] ∧
      splitLine (formatLine ["a\""] '"') '"' = .ok ["a\""]) := by
  have first : splitLine "\"\\\\n\"\",\",\\n" ',' = .ok ["\\\n\",", "\\n"] := by rfl
  have second : splitLine "\"a\"\"\"" '"' = .ok ["a\""] := by rfl
  exact ⟨⟨first, by decide, split_format_split first (by decide)⟩,
    second, by decide, split_format_split second (by decide)⟩

/-! ## Lines of fields -/

/-- A literal is encoded like the line break that it names. -/
theorem encodeBreaks_decodeLiterals (value : List Char) :
    encodeBreaks (decodeLiterals value) = encodeBreaks value := by
  fun_induction decodeLiterals value with
  | case1 rest ih =>
    rw [encodeBreaks_cons, ih]
    rfl
  | case2 rest ih =>
    rw [encodeBreaks_cons, ih]
    rfl
  | case3 c rest hn hr ih => rw [encodeBreaks_cons, encodeBreaks_cons, ih]
  | case4 => rfl

/-- Decoding may take the delimiter away, but only for a line break, which needs quotes as well. -/
theorem needsQuoting_decodeLiterals {value : List Char} {d : Char} (h : needsQuoting value d = true) :
    needsQuoting (decodeLiterals value) d = true := by
  fun_induction decodeLiterals value with
  | case1 rest ih => rfl
  | case2 rest ih => rfl
  | case3 c rest hn hr ih =>
    rw [needsQuoting, List.any_cons, Bool.or_eq_true] at h ⊢
    exact h.imp_right ih
  | case4 => exact h

/-- What is read in place of a field is written like the field. -/
theorem fieldForm_reread (d : Char) (p : LineBreaks) (value : List Char) :
    fieldForm d p (reread d p p value) = fieldForm d p value := by
  unfold reread
  cases hn : needsQuoting value d with
  | false => rfl
  | true =>
    cases p with
    | raw => rfl
    | escaped =>
      rw [if_pos rfl, fieldForm, fieldForm, needsQuoting_decodeLiterals hn, hn, enquote_eq, enquote_eq]
      simp only [LineBreaks.encode, encodeBreaks_decodeLiterals, if_true]

theorem lineForm_eq_intercalate (d : Char) (w : LineBreaks) (values : List (List Char)) :
    lineForm d w values = [d].intercalate (values.map (fieldForm d w)) := by
  rw [lineForm_eq_joinCells, joinCells, List.map_map]
  exact congrArg _ (List.map_congr_left fun value _ => written_formCell d w value)

theorem formatLine_rereadFields (fields : List String) (d : Char) (p : LineBreaks) :
    formatLine (rereadFields d p p fields) d p = formatLine fields d p := by
  unfold formatLine rereadFields
  rw [lineForm_eq_intercalate, lineForm_eq_intercalate, List.map_map, List.map_map, List.map_map]
  refine congrArg (fun forms => String.ofList ([d].intercalate forms)) (List.map_congr_left fun field _ => ?_)
  simp only [Function.comp_apply, String.toList_ofList]
  exact fieldForm_reread d p field.toList

/-- **Formatting, splitting and formatting.** A formatted line is split, and what it is split into has the same line,
whatever was formatted: the one empty field and literals in quoted fields, which do not come back, are no exceptions. -/
theorem format_split_format (fields : List String) {d : Char} (hd : d ≠ quote) (p : LineBreaks) :
    (splitLine (formatLine fields d p) d p).map (fun read => formatLine read d p) = .ok (formatLine fields d p) := by
  by_cases hf : fields = [""]
  · -- the line is empty, and so is the list that it is split into
    subst hf
    rfl
  · rw [splitLine_formatLine hf (fun _ => hd), Except.map, formatLine_rereadFields]

/-- Quotes that only the delimiter within a literal calls for stay when the literal is taken for a line break. -/
theorem format_split_format_literals : '\\' ≠ quote ∧
    splitLine (formatLine ["\\n", "\\\\r"] '\\') '\\' = .ok ["\n", "\\\r"] ∧
    (splitLine (formatLine ["\\n", "\\\\r"] '\\') '\\').map (fun read => formatLine read '\\') =
      .ok (formatLine ["\\n", "\\\\r"] '\\') :=
  ⟨by decide, by rfl, format_split_format _ (by decide) .escaped⟩

end DelimitedText
