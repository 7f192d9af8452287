import DelimitedText.Proofs.OpenQuote

/-!
# What the state of a scanner says

The parts of a scanner's state are changed at different characters, but behind each run from the beginning of a record
they fit together (`Represents`): the backslash that waits stands inside quotes and is decoded there, the current field
is empty or the end of the text where it is written without quotes, and line and column are those of the place to which
the text leads. So where no quote is open, no backslash waits, and the end of the text completes the fields as they
stand (`represents_of_scan`).
-/

namespace DelimitedText.Scanner

open Mode

variable {s s' : Scanner} {c d : Char} {p : LineBreaks} {line : Nat} {text : List Char}

/-- The state of a scanner that was fed a text, from the beginning of a record on the given line. -/
structure Represents (s : Scanner) (d : Char) (p : LineBreaks) (line : Nat) (text : List Char) : Prop where
  /-- a backslash waits just if it is the last character, inside quotes, and may be part of a literal -/
  pending : s.pendingBackslash = true ↔ s.mode = quoted ∧ p = .escaped ∧ text.getLast? = some '\\'
  /-- where no quote is open, the end of the text adds no backslash -/
  closed : s.isQuoteOpen = false →
    s.pendingBackslash = false ∧ s.finish = if text = [] then none else some (s.fields ++ [s.field])
  fieldStart : s.mode = fieldStart → s.field = ""
  /-- a field without quotes is what was fed behind the delimiter, or all that was fed -/
  bare : s.mode = Mode.bare → s.field ≠ "" ∧ (∀ c ∈ s.field.toList, c ≠ quote ∧ c ≠ d ∧ c ≠ '\n' ∧ c ≠ '\r') ∧
    ∃ before, text = before ++ s.field.toList ∧ (before = [] ∨ before.getLast? = some d)
  started : s.started = false ↔ text = []
  line : s.line = line + text.count '\n'
  column : s.column = columnBehind text

/-! ## The field without quotes -/

/-- What is fed to a field without quotes is its last character. -/
theorem field_of_feed (h : s.feed c = .more s') (hm : s'.mode = Mode.bare) : s'.field = s.field.push c := by
  unfold feed feedOutside at h
  cases hs : s.mode with
  | quoted =>
    rw [hs] at h
    cases h
    rw [moved_mode, mode_feedQuoted, hs] at hm
    split_ifs at hm
  | _ =>
    rw [hs] at h
    dsimp only at h
    split_ifs at h <;> cases h <;> simp_all [push, closeField]

/-- A field without quotes has a first character. -/
theorem field_ne_of_scan (run : (start d p line).scan text = .unfinished s) (hm : s.mode = Mode.bare) :
    s.field ≠ "" := by
  rcases List.eq_nil_or_concat' text with rfl | ⟨before, c, rfl⟩
  · cases run
    cases hm
  · obtain ⟨s₁, -, fed⟩ := scan_concat_eq_unfinished run
    rw [field_of_feed fed hm]
    intro he
    have := congrArg String.toList he
    simp at this

theorem Seen.field_of_fieldStart {seen : List Char} (h : Seen s seen) (hm : s.mode = fieldStart) : s.field = "" := by
  cases h with
  | nothing mode field pending => exact field
  | bare mode => rw [hm] at mode; cases mode
  | opened inside => rw [inside.mode] at hm; cases hm
  | closed mode => rw [hm] at mode; cases mode

theorem Seen.eq_field_of_bare {seen : List Char} (h : Seen s seen) (hm : s.mode = Mode.bare) :
    seen = s.field.toList ∧ (Cell.bare s.field.toList).IsValid s.delimiter := by
  cases h with
  | nothing mode => rw [hm] at mode; cases mode
  | bare mode pending valid => exact ⟨rfl, valid⟩
  | opened inside => rw [inside.mode] at hm; cases hm
  | closed mode => rw [hm] at mode; cases mode

/-- Closed cells end in the delimiter. -/
theorem getLast?_closedCells (d : Char) (cells : List Cell) :
    closedCells d cells = [] ∨ (closedCells d cells).getLast? = some d := by
  rcases List.eq_nil_or_concat' cells with rfl | ⟨cells, cell, rfl⟩
  · exact .inl rfl
  · refine .inr ?_
    rw [closedCells_concat, ← List.append_assoc, List.getLast?_concat]

/-- A field without quotes is all that was fed behind the delimiter, or behind the beginning. -/
theorem exists_before_of_bare (run : (start d p line).scan text = .unfinished s) (hm : s.mode = Mode.bare) :
    (∀ c ∈ s.field.toList, c ≠ quote ∧ c ≠ d ∧ c ≠ '\n' ∧ c ≠ '\r') ∧
      ∃ before, text = before ++ s.field.toList ∧ (before = [] ∨ before.getLast? = some d) := by
  obtain ⟨cells, seen, derives, cut⟩ := derives_of_scan (derives_start d p line) run
  have delimiter : s.delimiter = d := (run_of_scan run).delimiter
  obtain ⟨rfl, valid⟩ := derives.seen.eq_field_of_bare hm
  rw [delimiter] at valid
  exact ⟨valid, closedCells d cells, cut, getLast?_closedCells d cells⟩

theorem field_of_fieldStart (run : (start d p line).scan text = .unfinished s) (hm : s.mode = fieldStart) :
    s.field = "" := by
  obtain ⟨cells, seen, derives, -⟩ := derives_of_scan (derives_start d p line) run
  exact derives.seen.field_of_fieldStart hm

/-! ## The backslash and the end of the text -/

theorem pendingBackslash_iff_of_scan (run : (start d p line).scan text = .unfinished s) :
    s.pendingBackslash = true ↔ s.mode = quoted ∧ p = .escaped ∧ text.getLast? = some '\\' := by
  by_cases hm : s.mode = quoted
  · rw [pendingBackslash_of_scan run hm]
    simp [hm, and_comm]
  · have none_ := (exists_cells_of_scan run hm).1.pending
    simp [hm, none_]

theorem started_of_scan (run : (start d p line).scan text = .unfinished s) : s.started = false ↔ text = [] := by
  rw [(run_of_scan run).started]
  simp [start]

/-- Where no quote is open, the end of the text completes the fields as they stand. -/
theorem finish_of_scan (run : (start d p line).scan text = .unfinished s) (hm : s.mode ≠ quoted) :
    s.finish = if text = [] then none else some (s.fields ++ [s.field]) := by
  have started := started_of_scan run
  split
  · rename_i ht
    exact finish_eq_none_iff.2 (started.2 ht)
  · rename_i ht
    exact (exists_cells_of_scan run hm).1.finish (by simpa using mt started.1 ht)

/-! ## The state -/

/-- **A run** from the beginning of a record leaves the scanner in a state that represents its text. -/
theorem represents_of_scan (run : (start d p line).scan text = .unfinished s) : Represents s d p line text where
  pending := pendingBackslash_iff_of_scan run
  closed := by
    intro hq
    have hm : s.mode ≠ quoted := by simpa [isQuoteOpen] using hq
    exact ⟨(exists_cells_of_scan run hm).1.pending, finish_of_scan run hm⟩
  fieldStart := field_of_fieldStart run
  bare := fun hm => ⟨field_ne_of_scan run hm, exists_before_of_bare run hm⟩
  started := started_of_scan run
  line := (run_of_scan run).line
  column := column_of_scan run

/-- A quoted field of two lines, with a literal and a doubled quote, and a field without quotes that ends in a
backslash. -/
theorem represents_of_scan_bare :
    let text := "\"\\n\n\"\"\",é\\".toList
    ∃ s, (start ',' .escaped 7).scan text = .unfinished s ∧ s.field = "é\\" ∧ s.mode = Mode.bare ∧
      Represents s ',' .escaped 7 text := by
  intro text
  have run : (start ',' .escaped 7).scan text = .unfinished { start ',' .escaped 8 with
      column := 6, mode := Mode.bare, field := "é\\", fields := ["\n\n\""], started := true } := by decide
  exact ⟨_, run, rfl, rfl, represents_of_scan run⟩

end DelimitedText.Scanner
