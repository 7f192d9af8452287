import DelimitedText.Proofs.Grammar

/-!
# When a field needs quotes

The text of a field that holds no quote, no line break and no delimiter is a line of its own, and is read as that field.
Any other text that is read as a single field is more than the cell of that field, or the cell is in quotes. The value
of such a cell is shorter than the cell (`Cell.length_value_lt`), so the text is not read as itself. Hence fields are
quoted exactly when they have to be (`needsQuoting_eq_false_iff`).
-/

namespace DelimitedText

/-! ## The lengths of values -/

theorem length_decodeLiterals_le (value : List Char) : (decodeLiterals value).length ≤ value.length := by
  fun_induction decodeLiterals value with
  | case1 rest ih => simp only [List.length_cons]; omega
  | case2 rest ih => simp only [List.length_cons]; omega
  | case3 c rest _ _ ih => simp only [List.length_cons]; omega
  | case4 => exact Nat.le_refl 0

theorem LineBreaks.length_decode_le (p : LineBreaks) (value : List Char) : (p.decode value).length ≤ value.length := by
  cases p with
  | escaped => exact length_decodeLiterals_le value
  | raw => exact Nat.le_refl _

theorem length_collapseQuotes_le (body : List Char) : (collapseQuotes body).length ≤ body.length := by
  fun_induction collapseQuotes body with
  | case1 rest ih => simp only [List.length_cons]; omega
  | case2 c rest _ ih => simp only [List.length_cons]; omega
  | case3 => exact Nat.le_refl 0

/-- The quotes around a cell are no part of its value. -/
theorem Cell.length_value_lt (p : LineBreaks) (body : List Char) :
    ((quoted body).value p).length < (quoted body).written.length := by
  have decoded := p.length_decode_le (collapseQuotes body)
  have collapsed := length_collapseQuotes_le body
  simp only [value, written, List.length_cons, List.length_append]
  omega

/-! ## Texts that are fields -/

/-- A cell at the beginning of the text that it stands for is the whole of it, without quotes. -/
theorem Cell.eq_bare_of_value {p : LineBreaks} {cell : Cell} {value behind : List Char} (h : cell.value p = value)
    (hw : value = cell.written ++ behind) : cell = .bare value := by
  cases cell with
  | bare text => rw [← h]; rfl
  | quoted body =>
    have shorter := length_value_lt p body
    rw [h, hw, List.length_append] at shorter
    omega

/-- **Quotes where they are needed.** A text that is not empty is written without quotes just when it is read as itself
and nothing else, whatever the delimiter and the policy. -/
theorem needsQuoting_eq_false_iff {value : String} (some_ : value ≠ "") (d : Char) (p : LineBreaks) :
    needsQuoting value.toList d = false ↔ splitLine value d p = .ok [value] := by
  constructor
  · intro plain
    have written : formatLine [value] d = value := by
      rw [formatLine, List.map_singleton, lineForm, fieldForm, plain]
      exact String.ofList_toList
    have kept : rereadFields d .escaped p [value] = [value] := by
      rw [rereadFields, List.map_singleton, reread.eq_def, plain]
      exact congrArg ([·]) String.ofList_toList
    have several : [value] ≠ [""] := by simpa using some_
    have split := splitLine_formatLine (d := d) several (by simp) .escaped p
    rwa [written, kept] at split
  · intro split
    obtain ⟨cells, ⟨-, valid, ending, -, cut⟩, fields, -⟩ := exists_spells_of_splitLine split some_
    obtain ⟨cell, rfl, field⟩ := List.map_eq_singleton_iff.1 fields.symm
    rw [joinCells_singleton] at cut
    have bare : cell = .bare value.toList :=
      Cell.eq_bare_of_value (by rw [← String.toList_ofList (l := cell.value p), field]) cut
    have single := valid cell List.mem_cons_self
    rw [bare] at single
    exact Cell.isValid_bare_iff.1 single

/-- A line feed that is the delimiter, and a literal that only quotes would decode. -/
theorem needsQuoting_eq_false_iff_lineFeed :
    ("a\nb" ≠ "" ∧ splitLine "a\nb" '\n' ≠ .ok ["a\nb"]) ∧ ("\\n" ≠ "" ∧ splitLine "\\n" ',' = .ok ["\\n"]) := by
  have feed : "a\nb" ≠ "" := by decide
  have literal : "\\n" ≠ "" := by decide
  refine ⟨⟨feed, fun split => ?_⟩, literal, (needsQuoting_eq_false_iff literal ',' .escaped).1 (by decide)⟩
  have plain := (needsQuoting_eq_false_iff feed '\n' .escaped).2 split
  revert plain
  decide

end DelimitedText
