import DelimitedText.Proofs.Field

/-!
# The cells of a line

A `Cell` is a field as it stands in a line: a bare text, or a body between quotes. `Cell.written` is its text and
`Cell.value` what it stands for; `Cell.IsValid` says which cells there are. The quotes of a body stand in pairs
(`QuotesPaired`), which is to say that it is a text with each quote doubled (`eq_doubleQuotes_of_quotesPaired`,
`quotesPaired_doubleQuotes`).

Over cells with the delimiter between them the scanner reads their values (`Scanner.scan_cells`). The written form of a
field is a cell (`formCell`).
-/

namespace DelimitedText

/-! ## Pairs of quotes -/

/-- Every run of quotes that no other quote touches has an even length. -/
def QuotesPaired (body : List Char) : Prop :=
  ∀ before n behind, body = before ++ (List.replicate n quote ++ behind) → before.getLast? ≠ some quote →
    behind.head? ≠ some quote → 2 ∣ n

/-- A text with one quote in place of each pair. -/
def collapseQuotes : List Char → List Char
  | '"' :: '"' :: rest => '"' :: collapseQuotes rest
  | c :: rest => c :: collapseQuotes rest
  | [] => []

section Pairs

variable {c : Char} {rest : List Char}

theorem quotesPaired_nil : QuotesPaired [] := by
  intro before n behind h _ _
  have := congrArg List.length h
  simp only [List.length_nil, List.length_append, List.length_replicate] at this
  omega

/-- A character other than a quote parts the runs before and behind it. -/
theorem quotesPaired_cons (hc : c ≠ quote) : QuotesPaired (c :: rest) ↔ QuotesPaired rest := by
  constructor
  · intro h before n behind he hb hn
    refine h (c :: before) n behind (by rw [he, List.cons_append]) ?_ hn
    cases before with
    | nil => simpa using hc
    | cons x before => simpa using hb
  · intro h before n behind he hb hn
    cases before with
    | nil =>
      cases n with
      | zero => omega
      | succ n => exact absurd (List.cons.inj he).1 hc
    | cons x before =>
      obtain ⟨-, rfl⟩ := List.cons.inj he
      refine h before n behind rfl ?_ hn
      cases before with
      | nil => simp
      | cons y before => simpa using hb

/-- Two quotes more keep the parity of a run. -/
theorem quotesPaired_pair : QuotesPaired (quote :: quote :: rest) ↔ QuotesPaired rest := by
  constructor
  · intro h before n behind he hb hn
    cases before with
    | nil =>
      have := h [] (n + 2) behind (by rw [he]; rfl) hb hn
      omega
    | cons x before => exact h (quote :: quote :: x :: before) n behind (by rw [he]; rfl) (by simpa using hb) hn
  · intro h before n behind he hb hn
    match before, he with
    | [], he =>
      match n, he with
      | 0, _ => omega
      | 1, he =>
        obtain ⟨-, rfl⟩ := List.cons.inj he
        exact absurd rfl hn
      | n + 2, he =>
        have := h [] n behind (List.cons.inj (List.cons.inj he).2).2 (by simp) hn
        omega
    | [x], he =>
      obtain ⟨rfl, -⟩ := List.cons.inj he
      exact absurd rfl hb
    | x :: y :: before, he =>
      obtain ⟨-, he⟩ := List.cons.inj he
      obtain ⟨rfl, rfl⟩ := List.cons.inj he
      refine h before n behind rfl ?_ hn
      cases before with
      | nil => simp
      | cons z before => simpa using hb

/-- A quote by itself is an odd run. -/
theorem not_quotesPaired_single (h : rest.head? ≠ some quote) : ¬ QuotesPaired (quote :: rest) := by
  intro hq
  have := hq [] 1 rest rfl (by simp) h
  omega

theorem quotesPaired_doubleQuotes (content : List Char) : QuotesPaired (doubleQuotes content) := by
  induction content with
  | nil => exact quotesPaired_nil
  | cons c content ih =>
    rw [doubleQuotes_cons]
    by_cases hc : c = quote
    · rw [if_pos hc]
      exact quotesPaired_pair.2 ih
    · rw [if_neg hc]
      exact (quotesPaired_cons hc).2 ih

/-- Paired quotes are doubled ones. -/
theorem eq_doubleQuotes_of_quotesPaired {body : List Char} (h : QuotesPaired body) :
    body = doubleQuotes (collapseQuotes body) := by
  fun_induction collapseQuotes body with
  | case1 rest ih =>
    rw [doubleQuotes_cons, ← ih (quotesPaired_pair.1 h)]
    rfl
  | case2 c rest hpair ih =>
    have hc : c ≠ quote := by
      rintro rfl
      refine not_quotesPaired_single ?_ h
      intro hq
      obtain ⟨tail, ht⟩ := List.head?_eq_some_iff.1 hq
      exact hpair tail rfl ht
    rw [doubleQuotes_cons, if_neg hc, ← ih ((quotesPaired_cons hc).1 h)]
    rfl
  | case3 => rfl

theorem collapseQuotes_doubleQuotes (content : List Char) : collapseQuotes (doubleQuotes content) = content := by
  induction content with
  | nil => rfl
  | cons c content ih =>
    rw [doubleQuotes_cons]
    by_cases hc : c = quote
    · subst hc
      exact congrArg (quote :: ·) ih
    · rw [if_neg hc, List.singleton_append, collapseQuotes.eq_2 c _ fun _ he _ => hc he, ih]

end Pairs

/-! ## Cells -/

/-- A field as it stands in a line. -/
inductive Cell where
  | bare (text : List Char)
  /-- a body between quotes -/
  | quoted (body : List Char)

namespace Cell

/-- The text of a cell in its line. -/
def written : Cell → List Char
  | .bare text => text
  | .quoted body => quote :: body ++ [quote]

/-- The field that a cell stands for. -/
def value (lineBreaks : LineBreaks) : Cell → List Char
  | .bare text => text
  | .quoted body => lineBreaks.decode (collapseQuotes body)

/-- Whether a cell can stand between two delimiters. -/
def IsValid (delimiter : Char) : Cell → Prop
  | .bare text => ∀ c ∈ text, c ≠ quote ∧ c ≠ delimiter ∧ c ≠ '\n' ∧ c ≠ '\r'
  | .quoted body => QuotesPaired body

/-- A text can be a bare cell iff it can be written without quotes. -/
theorem isValid_bare_iff {d : Char} {text : List Char} :
    (bare text).IsValid d ↔ needsQuoting text d = false := by
  unfold IsValid needsQuoting
  rw [List.any_eq_false]
  refine forall_congr' fun c => imp_congr_right fun _ => ?_
  simp only [isLineBreak, Bool.or_eq_true, decide_eq_true_eq, not_or]
  constructor
  · rintro ⟨hq, hd, hn, hr⟩
    exact ⟨⟨hq, hn, hr⟩, hd⟩
  · rintro ⟨⟨hq, hn, hr⟩, hd⟩
    exact ⟨hq, hd, hn, hr⟩

end Cell

/-- Cells with the delimiter between them. -/
def joinCells (delimiter : Char) (cells : List Cell) : List Char :=
  [delimiter].intercalate (cells.map Cell.written)

/-- The fields that cells stand for. -/
def cellFields (lineBreaks : LineBreaks) (cells : List Cell) : List String :=
  cells.map fun cell => String.ofList (cell.value lineBreaks)

theorem joinCells_cons_cons (d : Char) (cell next : Cell) (cells : List Cell) :
    joinCells d (cell :: next :: cells) = cell.written ++ d :: joinCells d (next :: cells) := by
  simp [joinCells, List.intercalate_cons_cons]

theorem joinCells_singleton (d : Char) (cell : Cell) : joinCells d [cell] = cell.written := by
  simp [joinCells]

namespace Scanner

variable {s : Scanner} {done : List String}

/-- Over a cell the scanner reads its value. -/
theorem scan_cell (h : AtField s done) {cell : Cell} (hc : cell.IsValid s.delimiter) :
    ∃ s', s.scan cell.written = .unfinished s' ∧
      Completes s' (done ++ [String.ofList (cell.value s.lineBreaks)]) := by
  cases cell with
  | quoted body =>
    have doubled : body = doubleQuotes (collapseQuotes body) := eq_doubleQuotes_of_quotesPaired hc
    rw [Cell.written, doubled, Cell.value, collapseQuotes_doubleQuotes]
    exact scan_quoted h _
  | bare text =>
    obtain ⟨s', h', hm, hf, ht, hp⟩ := scan_bare text (.inl h.mode) (Cell.isValid_bare_iff.1 hc)
    refine ⟨s', h', ?_, ?_, hp.trans h.pending⟩
    · rcases hm with hm | hm <;> rw [hm] <;> decide
    · rw [h.field] at ht
      rw [hf, h.fields, ← String.ofList_toList (s := s'.field), ht]
      rfl

/-- **A line.** Over cells with the delimiter between them the scanner reads the values of all. -/
theorem scan_cells : ∀ (cells : List Cell) {s : Scanner} {done : List String}, AtField s done →
    (1 < cells.length → s.delimiter ≠ quote) → cells ≠ [] → (∀ cell ∈ cells, cell.IsValid s.delimiter) →
    ∃ s', s.scan (joinCells s.delimiter cells) = .unfinished s' ∧
      Completes s' (done ++ cellFields s.lineBreaks cells)
  | [], _, _, _, _, h, _ => absurd rfl h
  | [cell], s, _, h, _, _, hv => by
    rw [joinCells_singleton]
    exact scan_cell h (hv cell List.mem_cons_self)
  | cell :: next :: cells, s, done, h, hd, _, hv => by
    have hq : s.delimiter ≠ quote := hd (by simp)
    obtain ⟨s₁, h₁, hc⟩ := scan_cell h (hv cell List.mem_cons_self)
    have run := run_of_scan h₁
    -- the delimiter between the cells, as the scanner knows it behind the first
    obtain ⟨s₂, h₂, ha⟩ := hc.feed_delimiter (by rw [run.delimiter]; exact hq)
    rw [run.delimiter] at h₂
    have step := run_of_feed h₂
    have delimiter : s₂.delimiter = s.delimiter := step.delimiter.trans run.delimiter
    have lineBreaks : s₂.lineBreaks = s.lineBreaks := step.lineBreaks.trans run.lineBreaks
    obtain ⟨s', h', hc'⟩ := scan_cells (next :: cells) ha (fun _ => by rw [delimiter]; exact hq) (by simp)
      (by rw [delimiter]; exact fun cell hm => hv cell (List.mem_cons_of_mem _ hm))
    rw [delimiter] at h'
    refine ⟨s', ?_, ?_⟩
    · rw [joinCells_cons_cons, scan_append h₁, scan_cons h₂, h']
    · rw [lineBreaks, List.append_assoc] at hc'
      exact hc'

end Scanner

/-! ## Written fields -/

/-- The cell that a field is written as. -/
def formCell (delimiter : Char) (lineBreaks : LineBreaks) (value : List Char) : Cell :=
  if needsQuoting value delimiter then .quoted (doubleQuotes (lineBreaks.encode value)) else .bare value

section FormCell

variable (d : Char) (w r : LineBreaks) (value : List Char)

theorem written_formCell : (formCell d w value).written = fieldForm d w value := by
  unfold formCell fieldForm
  rw [enquote_eq]
  split <;> rfl

theorem isValid_formCell : (formCell d w value).IsValid d := by
  unfold formCell
  split
  · exact quotesPaired_doubleQuotes _
  · rename_i h
    exact Cell.isValid_bare_iff.2 (Bool.eq_false_iff.2 h)

/-- A field that is written and read comes back as `reread` says. -/
theorem value_formCell : (formCell d w value).value r = reread d w r value := by
  unfold formCell reread
  split
  · rw [Cell.value, collapseQuotes_doubleQuotes, decode_encode]
  · rfl

end FormCell

end DelimitedText
