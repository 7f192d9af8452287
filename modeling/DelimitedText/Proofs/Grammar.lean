import DelimitedText.Proofs.RoundTrip

/-!
# The grammar of lines

A line is a number of cells with the delimiter between them, and behind them nothing, or a line break and any text
(`Spells`). `splitLine_eq_ok_iff` says that splitting accepts the empty text and the texts of this grammar, and that it
gives the values of the cells.

That every text of the grammar is accepted is `Scanner.scan_cells`. For the other direction a state of the scanner tells
what was fed of the current cell (`Scanner.Seen`), and every step either feeds more of it or completes it
(`Scanner.Derives.feed`); so a run leaves some cells behind it and a part of another (`Scanner.derives_of_scan`). This
holds of any delimiter, even one that is never met because it is the quote.
-/

namespace DelimitedText

/-! ## Lines -/

/-- What may stand behind the last cell: nothing, or a line break with any text behind it. -/
def IsEnding (ending : List Char) : Prop :=
  ending = [] ∨ ∃ terminator ignored, (terminator = ['\n'] ∨ terminator = ['\r'] ∨ terminator = ['\r', '\n']) ∧
    ending = terminator ++ ignored

/-- A text is the line of these cells. -/
structure Spells (delimiter : Char) (text : List Char) (cells : List Cell) : Prop where
  some : cells ≠ []
  valid : ∀ cell ∈ cells, cell.IsValid delimiter
  line : ∃ ending, IsEnding ending ∧ text = joinCells delimiter cells ++ ending

theorem isEnding_cons_iff {c : Char} {rest : List Char} : IsEnding (c :: rest) ↔ isLineBreak c = true := by
  unfold IsEnding
  simp only [isLineBreak, Bool.or_eq_true, decide_eq_true_eq]
  constructor
  · rintro (h | ⟨terminator, ignored, rfl | rfl | rfl, h⟩)
    · cases h
    · exact .inl (List.cons.inj h).1
    · exact .inr (List.cons.inj h).1
    · exact .inr (List.cons.inj h).1
  · rintro (rfl | rfl)
    · exact .inr ⟨['\n'], rest, .inl rfl, rfl⟩
    · exact .inr ⟨['\r'], rest, .inr (.inl rfl), rfl⟩

/-- Cells with the delimiter behind each. -/
def closedCells (delimiter : Char) (cells : List Cell) : List Char :=
  cells.flatMap fun cell => cell.written ++ [delimiter]

theorem closedCells_concat (d : Char) (cells : List Cell) (cell : Cell) :
    closedCells d (cells ++ [cell]) = closedCells d cells ++ (cell.written ++ [d]) := by
  simp [closedCells]

theorem joinCells_concat (d : Char) (cells : List Cell) (cell : Cell) :
    joinCells d (cells ++ [cell]) = closedCells d cells ++ cell.written := by
  induction cells with
  | nil => exact joinCells_singleton d cell
  | cons first cells ih =>
    cases cells with
    | nil => simp [joinCells_cons_cons, joinCells_singleton, closedCells]
    | cons next cells =>
      rw [List.cons_append, List.cons_append, joinCells_cons_cons, ← List.cons_append, ih]
      simp [closedCells]

theorem cellFields_concat (p : LineBreaks) (cells : List Cell) (cell : Cell) :
    cellFields p (cells ++ [cell]) = cellFields p cells ++ [String.ofList (cell.value p)] := by
  simp [cellFields]

/-- A quote is neither a line break nor a part of a literal. -/
theorem decode_append_quote (p : LineBreaks) (a b : List Char) :
    p.decode (a ++ quote :: b) = p.decode a ++ quote :: p.decode b := by
  cases p with
  | raw => rfl
  | escaped =>
    show decodeLiterals (a ++ quote :: b) = decodeLiterals a ++ quote :: decodeLiterals b
    fun_induction decodeLiterals a with
    | case1 rest ih => exact congrArg ('\n' :: ·) ih
    | case2 rest ih => exact congrArg ('\r' :: ·) ih
    | case3 c rest hn hr ih =>
      rw [List.cons_append, List.cons_append, ← ih]
      -- no literal arises: behind `c` there is the same letter as before, or the quote
      refine decodeLiterals.eq_3 c _ ?_ ?_
      · intro tail hc h
        cases rest with
        | nil => cases h
        | cons x rest => exact hn rest hc (by rw [(List.cons.inj h).1])
      · intro tail hc h
        cases rest with
        | nil => cases h
        | cons x rest => exact hr rest hc (by rw [(List.cons.inj h).1])
    | case4 => exact decodeLiterals_cons (by decide) b

namespace Scanner

open Mode

variable {s s' : Scanner} {c : Char} {cells : List Cell} {seen : List Char}

/-! ## Within a cell -/

/-- What was fed of the current cell. -/
inductive Seen (s : Scanner) : List Char → Prop where
  | nothing (mode : s.mode = fieldStart) (field : s.field = "") (pending : s.pendingBackslash = false) : Seen s []
  /-- a part of a bare cell -/
  | bare (mode : s.mode = Mode.bare) (pending : s.pendingBackslash = false)
      (valid : (Cell.bare s.field.toList).IsValid s.delimiter) : Seen s s.field.toList
  /-- the quote that opens a cell, and a part of its body -/
  | opened {content : List Char} (inside : InQuotes s s.fields)
      (reads : ∀ rest, s.reading rest = s.lineBreaks.decode (content ++ rest)) : Seen s (quote :: doubleQuotes content)
  /-- a quoted cell, unless another quote follows -/
  | closed {content : List Char} (mode : s.mode = quoteSeen) (pending : s.pendingBackslash = false)
      (field : s.field.toList = s.lineBreaks.decode content) : Seen s (quote :: doubleQuotes content ++ [quote])

/-- Outside quotes a cell may end. -/
theorem Seen.exists_cell (h : Seen s seen) (hm : s.mode ≠ quoted) : s.pendingBackslash = false ∧
    ∃ cell : Cell, cell.written = seen ∧ cell.IsValid s.delimiter ∧
      String.ofList (cell.value s.lineBreaks) = s.field := by
  cases h with
  | nothing mode field pending =>
    refine ⟨pending, .bare [], rfl, fun c hc => absurd hc List.not_mem_nil, ?_⟩
    rw [field]
    rfl
  | bare mode pending valid => exact ⟨pending, .bare s.field.toList, rfl, valid, String.ofList_toList⟩
  | opened inside reads => exact absurd inside.mode hm
  | @closed content mode pending field =>
    refine ⟨pending, .quoted (doubleQuotes content), rfl, quotesPaired_doubleQuotes content, ?_⟩
    rw [Cell.value, collapseQuotes_doubleQuotes, ← field, String.ofList_toList]

/-- Behind the characters of a bare cell, or before any, a character that goes on is content. -/
theorem Seen.feed_bare (hm : s.mode = fieldStart ∨ s.mode = Mode.bare) (pending : s.pendingBackslash = false)
    (valid : (Cell.bare s.field.toList).IsValid s.delimiter) (hf : s.feed c = .more s') (hq : c ≠ quote)
    (hd : c ≠ s.delimiter) : Seen s' (s.field.toList ++ [c]) ∧ s'.fields = s.fields := by
  have completes : Completes s (s.fields ++ [s.field]) :=
    ⟨by rcases hm with hm | hm <;> rw [hm] <;> decide, rfl, pending⟩
  cases hb : isLineBreak c with
  | true =>
    rw [completes.feed_break hb hd] at hf
    cases hf
  | false =>
    rw [Scanner.feed_bare hm hq hd hb] at hf
    cases hf
    have field : (({ s with mode := Mode.bare }.push c).moved c).field.toList = s.field.toList ++ [c] := by
      rw [moved_field]
      simp [push]
    refine ⟨?_, by rw [moved_fields]; rfl⟩
    rw [← field]
    refine .bare (by rw [moved_mode]; rfl) (by rw [moved_pendingBackslash]; exact pending) ?_
    rw [field, moved_delimiter]
    have last : ∀ x ∈ [c], x ≠ quote ∧ x ≠ s.delimiter ∧ x ≠ '\n' ∧ x ≠ '\r' := by
      intro x hx
      rw [List.mem_singleton.1 hx]
      exact ⟨hq, hd, by simpa [isLineBreak] using hb⟩
    exact List.forall_mem_append.2 ⟨valid, last⟩

/-- **One character.** One that does not end the current cell is a further part of it. -/
theorem Seen.feed (h : Seen s seen) (hf : s.feed c = .more s') (hc : s.mode ≠ quoted → c ≠ quote → c ≠ s.delimiter) :
    Seen s' (seen ++ [c]) ∧ s'.fields = s.fields := by
  have lineBreaks : s'.lineBreaks = s.lineBreaks := (run_of_feed hf).lineBreaks
  cases h with
  | nothing mode field pending =>
    have outside : s.mode ≠ quoted := by rw [mode]; decide
    by_cases hq : c = quote
    · subst hq
      obtain ⟨s₁, h₁, inside, reads⟩ := AtField.feed_quote ⟨mode, field, rfl, pending⟩
      rw [h₁] at hf
      cases hf
      refine ⟨@Seen.opened s' [] ⟨inside.mode, rfl, inside.pending⟩ ?_, inside.fields⟩
      rw [lineBreaks]
      exact reads
    · have nil : s.field.toList = [] := by rw [field]; rfl
      have next := Seen.feed_bare (.inl mode) pending (by rw [nil]; exact fun c hc => absurd hc List.not_mem_nil) hf hq
        (hc outside hq)
      rw [nil] at next
      exact next
  | bare mode pending valid =>
    have outside : s.mode ≠ quoted := by rw [mode]; decide
    have hq : c ≠ quote := by
      rintro rfl
      simp [Scanner.feed, mode] at hf
    exact Seen.feed_bare (.inr mode) pending valid hf hq (hc outside hq)
  | @opened content inside reads =>
    by_cases hq : c = quote
    · subst hq
      obtain ⟨s₁, h₁, mode, fields, pending, -, field⟩ := inside.feed_quote
      rw [h₁] at hf
      cases hf
      refine ⟨.closed mode pending ?_, fields⟩
      rw [field, reads, List.append_nil, lineBreaks]
    · obtain ⟨s₁, h₁, inside', reads'⟩ := inside.feed_content hq
      rw [h₁] at hf
      cases hf
      have more : quote :: doubleQuotes content ++ [c] = quote :: doubleQuotes (content ++ [c]) := by
        simp [doubleQuotes, hq]
      rw [more]
      refine ⟨.opened ⟨inside'.mode, rfl, inside'.pending⟩ ?_, inside'.fields⟩
      intro rest
      rw [reads', reads, lineBreaks, List.append_assoc, List.singleton_append]
  | @closed content mode pending field =>
    have outside : s.mode ≠ quoted := by rw [mode]; decide
    by_cases hq : c = quote
    · subst hq
      obtain ⟨s₁, h₁, inside, reads⟩ := feed_second_quote mode pending
      rw [h₁] at hf
      cases hf
      have more : quote :: doubleQuotes content ++ [quote] ++ [quote] = quote :: doubleQuotes (content ++ [quote]) := by
        simp [doubleQuotes]
      rw [more]
      refine ⟨.opened ⟨inside.mode, rfl, inside.pending⟩ ?_, inside.fields⟩
      intro rest
      rw [reads, field, lineBreaks, List.append_assoc, List.singleton_append, decode_append_quote]
    · have hd := hc outside hq
      unfold Scanner.feed feedOutside at hf
      rw [mode] at hf
      dsimp only at hf
      split_ifs at hf

/-! ## Cell after cell -/

/-- The scanner has left `cells` behind it and was fed `seen` of another. -/
structure Derives (s : Scanner) (cells : List Cell) (seen : List Char) : Prop where
  valid : ∀ cell ∈ cells, cell.IsValid s.delimiter
  fields : s.fields = cellFields s.lineBreaks cells
  seen : Seen s seen
  single : s.delimiter = quote → cells = []

theorem derives_start (d : Char) (p : LineBreaks) (line : Nat) : Derives (start d p line) [] [] :=
  ⟨fun _ hc => absurd hc List.not_mem_nil, rfl, .nothing rfl rfl rfl, fun _ => rfl⟩

/-- Outside quotes the current cell may be the last. -/
theorem Derives.exists_concat (h : Derives s cells seen) (hm : s.mode ≠ quoted) :
    Completes s (s.fields ++ [s.field]) ∧ ∃ cell : Cell, cell.written = seen ∧
      (∀ cell' ∈ cells ++ [cell], cell'.IsValid s.delimiter) ∧
      s.fields ++ [s.field] = cellFields s.lineBreaks (cells ++ [cell]) := by
  obtain ⟨pending, cell, written, valid, value⟩ := h.seen.exists_cell hm
  refine ⟨⟨hm, rfl, pending⟩, cell, written, ?_, ?_⟩
  · exact List.forall_mem_append.2 ⟨h.valid, List.forall_mem_singleton.2 valid⟩
  · rw [cellFields_concat, value, h.fields]

/-- **One character.** It goes into the current cell, or it is the delimiter and completes that cell. -/
theorem Derives.feed (h : Derives s cells seen) (hf : s.feed c = .more s') : ∃ cells' seen', Derives s' cells' seen' ∧
    closedCells s.delimiter cells ++ (seen ++ [c]) = closedCells s.delimiter cells' ++ seen' := by
  have run := run_of_feed hf
  by_cases hend : s.mode ≠ quoted ∧ c ≠ quote ∧ c = s.delimiter
  · obtain ⟨hm, hq, rfl⟩ := hend
    obtain ⟨completes, cell, rfl, valid, fields⟩ := h.exists_concat hm
    obtain ⟨s₁, h₁, between⟩ := completes.feed_delimiter hq
    rw [h₁] at hf
    cases hf
    refine ⟨cells ++ [cell], [], ⟨?_, ?_, .nothing between.mode between.field between.pending, ?_⟩, ?_⟩
    · rw [run.delimiter]
      exact valid
    · rw [between.fields, run.lineBreaks, fields]
    · intro hd
      exact absurd (run.delimiter.symm.trans hd) hq
    · rw [closedCells_concat, List.append_nil]
  · have within : s.mode ≠ quoted → c ≠ quote → c ≠ s.delimiter := fun hm hq hd => hend ⟨hm, hq, hd⟩
    obtain ⟨seen', fields⟩ := h.seen.feed hf within
    refine ⟨cells, seen ++ [c], ⟨?_, ?_, seen', ?_⟩, rfl⟩
    · rw [run.delimiter]
      exact h.valid
    · rw [fields, run.lineBreaks, h.fields]
    · rw [run.delimiter]
      exact h.single

/-- **A run** leaves cells behind it, and was fed a part of one more. -/
theorem derives_of_scan : ∀ {text : List Char} {s : Scanner} {cells : List Cell} {seen : List Char},
    Derives s cells seen → s.scan text = .unfinished s' → ∃ cells' seen', Derives s' cells' seen' ∧
      closedCells s.delimiter cells ++ (seen ++ text) = closedCells s.delimiter cells' ++ seen'
  | [], _, cells, seen, h, hs => by
    cases hs
    exact ⟨cells, seen, h, by rw [List.append_nil]⟩
  | c :: text, s, cells, seen, h, hs => by
    rw [scan] at hs
    split at hs
    · rename_i s₁ hf
      obtain ⟨cells₁, seen₁, h₁, first⟩ := h.feed hf
      obtain ⟨cells', seen', h', more⟩ := derives_of_scan h₁ hs
      rw [(run_of_feed hf).delimiter] at more
      refine ⟨cells', seen', h', ?_⟩
      rw [← more, ← List.append_assoc _ seen₁, ← first]
      simp
    · cases hs
    · cases hs

/-- What a run from the beginning leaves behind it, where its last cell may end. -/
theorem exists_cells_of_scan {d : Char} {p : LineBreaks} {line : Nat} {text : List Char}
    (h : (start d p line).scan text = .unfinished s) (hm : s.mode ≠ quoted) : Completes s (s.fields ++ [s.field]) ∧
      ∃ cells, cells ≠ [] ∧ (∀ cell ∈ cells, cell.IsValid d) ∧ text = joinCells d cells ∧
        s.fields ++ [s.field] = cellFields p cells ∧ (d = quote → cells.length = 1) := by
  obtain ⟨cells, seen, derives, cut⟩ := derives_of_scan (derives_start d p line) h
  have run := run_of_scan h
  obtain ⟨completes, cell, written, valid, fields⟩ := derives.exists_concat hm
  have single := derives.single
  rw [run.delimiter] at valid single
  rw [run.lineBreaks] at fields
  refine ⟨completes, cells ++ [cell], by simp, valid, ?_, fields, ?_⟩
  · rw [joinCells_concat, written]
    exact cut
  · intro hd
    rw [single hd]
    rfl

end Scanner

/-! ## Splitting -/

/-- A line is fed to the scanner up to its end or to a line break, and all its cells are complete there. -/
theorem exists_scan_of_splitLine {text : String} {d : Char} {p : LineBreaks} {fields : List String}
    (h : splitLine text d p = .ok fields) (ht : text ≠ "") : ∃ line ending s,
      text.toList = line ++ ending ∧ IsEnding ending ∧ ending.head? ≠ some d ∧
        (Scanner.start d p 1).scan line = .unfinished s ∧ s.Completes fields := by
  unfold splitLine at h
  split at h
  · rename_i fields' last rest hs
    cases h
    obtain ⟨line, c, ignored, s, cut, run, hc, -, -⟩ := Scanner.scan_eq_record hs
    obtain ⟨ends, outside, rfl⟩ := Scanner.feed_eq_record hc
    obtain ⟨completes, -⟩ := Scanner.exists_cells_of_scan run outside
    refine ⟨line, c :: ignored, s, cut, isEnding_cons_iff.2 ends, ?_, run, completes⟩
    -- the delimiter would have gone on to the next cell
    intro hd
    have delimiter : s.delimiter = c := by
      rw [(Scanner.run_of_scan run).delimiter]
      exact (Option.some.inj hd).symm
    have unquoted : s.delimiter ≠ quote := by
      rw [delimiter]
      rintro rfl
      cases ends
    obtain ⟨next, more, -⟩ := completes.feed_delimiter unquoted
    rw [delimiter, hc] at more
    cases more
  · cases h
  · rename_i s run
    split at h
    · cases h
    · rename_i closed
      have outside : s.mode ≠ .quoted := by
        intro hm
        exact closed (by simp [Scanner.isQuoteOpen, hm])
      obtain ⟨completes, -⟩ := Scanner.exists_cells_of_scan run outside
      have started : s.started = true := by
        rw [(Scanner.run_of_scan run).started]
        simpa [Scanner.start] using ht
      rw [completes.finish started] at h
      cases h
      exact ⟨text.toList, [], s, (List.append_nil _).symm, .inl rfl, by simp, run, completes⟩

/-- A text is split where the scanner completes the fields of a line in front of an ending. -/
theorem splitLine_of_scan {text : String} {line ending : List Char} {d : Char} {p : LineBreaks} {s : Scanner}
    {fields : List String} (run : (Scanner.start d p 1).scan line = .unfinished s) (completes : s.Completes fields)
    (cut : text.toList = line ++ ending) (he : IsEnding ending) (hd : ending.head? ≠ some d) (ht : text ≠ "") :
    splitLine text d p = .ok fields := by
  cases ending with
  | nil =>
    rw [List.append_nil] at cut
    rw [← String.ofList_toList (s := text)]
    exact splitLine_of_completes (cut ▸ run) completes (by simpa using ht)
  | cons c ignored =>
    have ends : s.feed c = .record fields := by
      refine completes.feed_break (isEnding_cons_iff.1 he) ?_
      rw [(Scanner.run_of_scan run).delimiter]
      rintro rfl
      exact hd rfl
    rw [splitLine, cut, Scanner.scan_of_record run ends]

/-- **Soundness.** A text that is split spells cells, and their values are the fields; a delimiter that is the quote
leaves one. -/
theorem exists_spells_of_splitLine {text : String} {d : Char} {p : LineBreaks} {fields : List String}
    (h : splitLine text d p = .ok fields) (ht : text ≠ "") : ∃ cells, Spells d text.toList cells ∧
      fields = cellFields p cells ∧ (d = quote → cells.length = 1) := by
  obtain ⟨line, ending, s, cut, he, -, run, completes⟩ := exists_scan_of_splitLine h ht
  obtain ⟨-, cells, some_, valid, rfl, values, single⟩ := Scanner.exists_cells_of_scan run completes.mode
  exact ⟨cells, ⟨some_, valid, ending, he, cut⟩, completes.fields.symm.trans values, single⟩

/-- **Completeness.** A text that spells cells is split into their values. -/
theorem splitLine_of_spells {text : String} {d : Char} {cells : List Cell} (hd : isDelimiter d = true)
    (p : LineBreaks) (h : Spells d text.toList cells) (ht : text ≠ "") :
    splitLine text d p = .ok (cellFields p cells) := by
  obtain ⟨hq, hn, hr⟩ := ne_of_isDelimiter hd
  obtain ⟨some_, valid, ending, he, cut⟩ := h
  obtain ⟨s, run, completes⟩ : ∃ s, (Scanner.start d p 1).scan (joinCells d cells) = .unfinished s ∧
      s.Completes (cellFields p cells) :=
    Scanner.scan_cells cells (Scanner.atField_start d p 1) (fun _ => hq) some_ valid
  refine splitLine_of_scan run completes cut he ?_ ht
  intro hm
  obtain ⟨ignored, rfl⟩ := List.head?_eq_some_iff.1 hm
  have breaks := isEnding_cons_iff.1 he
  simp [isLineBreak, hn, hr] at breaks

/-- **The grammar of lines.** Splitting accepts the empty text, which has no fields, and the texts that spell cells,
whose fields are the values of the cells; it accepts nothing else. -/
theorem splitLine_eq_ok_iff (text : String) (d : Delimiter) (p : LineBreaks) (fields : List String) :
    splitLine text d.char p = .ok fields ↔ text = "" ∧ fields = [] ∨
      text ≠ "" ∧ ∃ cells, Spells d.char text.toList cells ∧ fields = cellFields p cells := by
  constructor
  · intro h
    by_cases ht : text = ""
    · subst ht
      cases h
      exact .inl ⟨rfl, rfl⟩
    · obtain ⟨cells, spells, values, -⟩ := exists_spells_of_splitLine h ht
      exact .inr ⟨ht, cells, spells, values⟩
  · rintro (⟨rfl, rfl⟩ | ⟨ht, cells, spells, rfl⟩)
    · rfl
    · exact splitLine_of_spells d.valid p spells ht

end DelimitedText
