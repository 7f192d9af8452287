import DelimitedText.Line.Scanner
import Mathlib.Tactic.SplitIfs

/-!
# Runs of the scanner

`s.scan text = .unfinished s'` says that the scanner comes from `s` to `s'` over `text` without ending the record. Runs
compose (`scan_append`), and every run keeps the delimiter and the policy and counts line feeds (`Run`, `run_of_scan`).

Between fields the scanner is `AtField`; once the text of a field was fed it `Completes` a list of fields, and the next
delimiter (`Completes.feed_delimiter`), line break (`Completes.feed_break`) or end of the text (`Completes.finish`)
yields that list.
-/

namespace DelimitedText.Scanner

open Mode

variable {s s' : Scanner} {c : Char} {text a b : List Char}

/-! ## The fields of a moved state -/

@[simp] theorem moved_mode (s : Scanner) (c : Char) : (s.moved c).mode = s.mode := by
  unfold moved; split <;> rfl

@[simp] theorem moved_field (s : Scanner) (c : Char) : (s.moved c).field = s.field := by
  unfold moved; split <;> rfl

@[simp] theorem moved_fields (s : Scanner) (c : Char) : (s.moved c).fields = s.fields := by
  unfold moved; split <;> rfl

@[simp] theorem moved_delimiter (s : Scanner) (c : Char) : (s.moved c).delimiter = s.delimiter := by
  unfold moved; split <;> rfl

@[simp] theorem moved_lineBreaks (s : Scanner) (c : Char) : (s.moved c).lineBreaks = s.lineBreaks := by
  unfold moved; split <;> rfl

@[simp] theorem moved_pendingBackslash (s : Scanner) (c : Char) :
    (s.moved c).pendingBackslash = s.pendingBackslash := by
  unfold moved; split <;> rfl

@[simp] theorem moved_started (s : Scanner) (c : Char) : (s.moved c).started = true := by
  unfold moved; split <;> rfl

theorem moved_column (s : Scanner) (c : Char) : (s.moved c).column = if c = '\n' then 0 else s.column + 1 := by
  unfold moved; split <;> rfl

theorem moved_line (s : Scanner) (c : Char) : (s.moved c).line = s.line + [c].count '\n' := by
  unfold moved
  split
  · rename_i h; simp [h]
  · rename_i h; simp [h]

/-- `t` differs from `s` at most within the current field. -/
structure SameOutside (s t : Scanner) : Prop where
  delimiter : t.delimiter = s.delimiter
  lineBreaks : t.lineBreaks = s.lineBreaks
  line : t.line = s.line
  column : t.column = s.column
  fields : t.fields = s.fields

theorem sameOutside_feedQuotedPlain (s : Scanner) (c : Char) : SameOutside s (s.feedQuotedPlain c) := by
  unfold feedQuotedPlain push
  split_ifs <;> exact ⟨rfl, rfl, rfl, rfl, rfl⟩

theorem sameOutside_feedQuoted (s : Scanner) (c : Char) : SameOutside s (s.feedQuoted c) := by
  unfold feedQuoted
  dsimp only
  split_ifs
  · exact ⟨rfl, rfl, rfl, rfl, rfl⟩
  · exact ⟨rfl, rfl, rfl, rfl, rfl⟩
  · obtain ⟨hd, hl, hn, hc, hf⟩ := sameOutside_feedQuotedPlain ({ s with pendingBackslash := false }.push '\\') c
    exact ⟨hd, hl, hn, hc, hf⟩
  · exact sameOutside_feedQuotedPlain s c

/-- A quote leaves the quoted text, whatever backslash is pending, and no other character does. -/
theorem mode_feedQuoted (s : Scanner) (c : Char) : (s.feedQuoted c).mode = if c = quote then quoteSeen else s.mode := by
  have plain : ∀ s : Scanner, (s.feedQuotedPlain c).mode = if c = quote then quoteSeen else s.mode := by
    intro s
    unfold feedQuotedPlain
    split_ifs <;> rfl
  unfold feedQuoted
  cases s.pendingBackslash with
  | false => exact plain s
  | true =>
    dsimp only
    by_cases hn : c = 'n'
    · subst hn; rfl
    by_cases hr : c = 'r'
    · subst hr; rfl
    -- the backslash is content, and `c` is fed as if none were pending
    rw [if_pos rfl, if_neg hn, if_neg hr, plain]
    rfl

/-! ## Runs -/

/-- What every run keeps, and what it counts. -/
structure Run (s : Scanner) (text : List Char) (s' : Scanner) : Prop where
  delimiter : s'.delimiter = s.delimiter
  lineBreaks : s'.lineBreaks = s.lineBreaks
  line : s'.line = s.line + text.count '\n'
  started : s'.started = (s.started || !text.isEmpty)

theorem Run.nil (s : Scanner) : Run s [] s := ⟨rfl, rfl, by simp, by simp⟩

theorem Run.cons {s₁ : Scanner} (h : Run s [c] s₁) (h' : Run s₁ text s') : Run s (c :: text) s' where
  delimiter := h'.delimiter.trans h.delimiter
  lineBreaks := h'.lineBreaks.trans h.lineBreaks
  line := by
    rw [h'.line, h.line]
    simp only [List.count_cons, List.count_nil]
    omega
  started := by rw [h'.started, h.started]; simp

/-- A character that does not end the record is passed by a state with the same conventions at the same place. -/
theorem exists_moved_of_feed (h : s.feed c = .more s') : ∃ t : Scanner, s' = t.moved c ∧ t.delimiter = s.delimiter ∧
    t.lineBreaks = s.lineBreaks ∧ t.line = s.line ∧ t.column = s.column := by
  unfold feed feedOutside at h
  cases hm : s.mode with
  | fieldStart =>
    simp only [hm] at h
    split_ifs at h <;> cases h <;> exact ⟨_, rfl, rfl, rfl, rfl, rfl⟩
  | bare =>
    simp only [hm] at h
    split_ifs at h <;> cases h <;> exact ⟨_, rfl, rfl, rfl, rfl, rfl⟩
  | quoted =>
    simp only [hm] at h
    cases h
    have ho := sameOutside_feedQuoted s c
    exact ⟨_, rfl, ho.delimiter, ho.lineBreaks, ho.line, ho.column⟩
  | quoteSeen =>
    simp only [hm] at h
    split_ifs at h <;> cases h <;> exact ⟨_, rfl, rfl, rfl, rfl, rfl⟩

/-- One character that does not end the record. -/
theorem run_of_feed (h : s.feed c = .more s') : Run s [c] s' := by
  obtain ⟨t, rfl, hd, hl, hn, -⟩ := exists_moved_of_feed h
  exact ⟨by simp [hd], by simp [hl], by rw [moved_line, hn], by simp⟩

theorem run_of_scan : ∀ {text : List Char} {s : Scanner}, s.scan text = .unfinished s' → Run s text s'
  | [], _, h => by cases h; exact Run.nil _
  | c :: text, s, h => by
    rw [scan] at h
    split at h
    · rename_i s₁ hf
      exact (run_of_feed hf).cons (run_of_scan h)
    · cases h
    · cases h

/-- The last character of a run is fed behind a run over the others. -/
theorem scan_concat_eq_unfinished (h : s.scan (a ++ [c]) = .unfinished s') :
    ∃ s₁, s.scan a = .unfinished s₁ ∧ s₁.feed c = .more s' := by
  induction a generalizing s with
  | nil =>
    rw [List.nil_append, scan] at h
    split at h
    · rename_i s₁ hf
      cases h
      exact ⟨s, rfl, hf⟩
    · cases h
    · cases h
  | cons x a ih =>
    rw [List.cons_append, scan] at h
    split at h
    · rename_i s₂ hf
      obtain ⟨s₁, run, fed⟩ := ih h
      exact ⟨s₁, by rw [scan, hf]; exact run, fed⟩
    · cases h
    · cases h

/-- Runs compose. -/
theorem scan_append (h : s.scan a = .unfinished s') (b : List Char) : s.scan (a ++ b) = s'.scan b := by
  induction a generalizing s with
  | nil => cases h; rfl
  | cons c a ih =>
    rw [scan] at h
    rw [List.cons_append, scan]
    split at h
    · rename_i s₁ hf
      exact ih h
    · cases h
    · cases h

theorem scan_cons (h : s.feed c = .more s') (text : List Char) : s.scan (c :: text) = s'.scan text := by
  rw [scan, h]

/-! ## Where a run ends -/

/-- A record ends at a line break outside quotes. -/
theorem feed_eq_record {fields : List String} (h : s.feed c = .record fields) :
    isLineBreak c = true ∧ s.mode ≠ quoted ∧ fields = s.fields ++ [s.field] := by
  unfold feed feedOutside at h
  cases hm : s.mode with
  | quoted => rw [hm] at h; cases h
  | _ =>
    rw [hm] at h
    dsimp only at h
    split_ifs at h with _ _ hb
    cases h
    exact ⟨hb, by simp, rfl⟩

/-- What is misplaced is no line break, and is reported where it stands. -/
theorem feed_eq_misplaced {error : Error} (h : s.feed c = .misplaced error) :
    isLineBreak c = false ∧ ∃ context, error = .misplacedQuote s.line (s.column + 1) context := by
  unfold feed feedOutside at h
  cases hm : s.mode with
  | fieldStart => rw [hm] at h; dsimp only at h; split_ifs at h
  | bare =>
    rw [hm] at h
    dsimp only at h
    split_ifs at h with hq
    cases h
    exact ⟨by rw [hq]; rfl, _, rfl⟩
  | quoted => rw [hm] at h; cases h
  | quoteSeen =>
    rw [hm] at h
    dsimp only at h
    split_ifs at h with _ _ hb
    cases h
    exact ⟨Bool.eq_false_iff.2 hb, _, rfl⟩

/-- A record that ends has a last character, a run before it, and left behind it what the break does not take. -/
theorem scan_eq_record {fields : List String} {line : Nat} {rest : List Char}
    (h : s.scan text = .record fields line rest) : ∃ a c b s', text = a ++ c :: b ∧ s.scan a = .unfinished s' ∧
      s'.feed c = .record fields ∧ s'.line = line ∧ behindBreak c b = rest := by
  induction text generalizing s with
  | nil => cases h
  | cons x text ih =>
    rw [scan] at h
    split at h
    · rename_i s₁ hf
      obtain ⟨a, c, b, s', rfl, ha, hc, hl, hb⟩ := ih h
      exact ⟨x :: a, c, b, s', rfl, by rw [scan_cons hf, ha], hc, hl, hb⟩
    · rename_i hf
      cases h
      exact ⟨[], x, text, s, rfl, rfl, hf, rfl, rfl⟩
    · cases h

/-- A misplaced quote has a run before it. -/
theorem scan_eq_misplaced {error : Error} {line : Nat} {rest : List Char}
    (h : s.scan text = .misplaced error line rest) : ∃ a c s', text = a ++ c :: rest ∧ s.scan a = .unfinished s' ∧
      s'.feed c = .misplaced error ∧ s'.line = line := by
  induction text generalizing s with
  | nil => cases h
  | cons x text ih =>
    rw [scan] at h
    split at h
    · rename_i s₁ hf
      obtain ⟨a, c, s', rfl, ha, hc, hl⟩ := ih h
      exact ⟨x :: a, c, s', rfl, by rw [scan_cons hf, ha], hc, hl⟩
    · cases h
    · rename_i hf
      cases h
      exact ⟨[], x, s, rfl, rfl, hf, rfl⟩

theorem scan_of_record {fields : List String} (ha : s.scan a = .unfinished s') (hc : s'.feed c = .record fields)
    (b : List Char) : s.scan (a ++ c :: b) = .record fields s'.line (behindBreak c b) := by
  rw [scan_append ha, scan, hc]

theorem scan_of_misplaced {error : Error} (ha : s.scan a = .unfinished s') (hc : s'.feed c = .misplaced error)
    (b : List Char) : s.scan (a ++ c :: b) = .misplaced error s'.line b := by
  rw [scan_append ha, scan, hc]

/-- The end of the text completes a record iff there was text. -/
theorem finish_eq_none_iff : s.finish = none ↔ s.started = false := by
  unfold finish
  split <;> simp_all

/-! ## Fields -/

/-- Before a field, with the fields `done` behind it. -/
structure AtField (s : Scanner) (done : List String) : Prop where
  mode : s.mode = fieldStart
  field : s.field = ""
  fields : s.fields = done
  pending : s.pendingBackslash = false

/-- Behind the text of a field, the last of the fields `all`. -/
structure Completes (s : Scanner) (all : List String) : Prop where
  mode : s.mode ≠ quoted
  fields : s.fields ++ [s.field] = all
  pending : s.pendingBackslash = false

theorem atField_start (d : Char) (p : LineBreaks) (line : Nat) : AtField (start d p line) [] := ⟨rfl, rfl, rfl, rfl⟩

namespace Completes

variable {all : List String}

theorem isQuoteOpen (h : Completes s all) : s.isQuoteOpen = false := by simp [Scanner.isQuoteOpen, h.mode]

/-- Outside quotes a character other than the quote is the delimiter, a line break, or a matter of the mode. -/
theorem feed_eq (h : Completes s all) (hc : c ≠ quote) : ∃ other, s.feed c = s.feedOutside c other := by
  unfold feed
  cases hm : s.mode with
  | quoted => exact absurd hm h.mode
  | _ => simp only [hc, if_false]; exact ⟨_, rfl⟩

/-- The delimiter ends the field. -/
theorem feed_delimiter (h : Completes s all) (hd : s.delimiter ≠ quote) :
    ∃ s', s.feed s.delimiter = .more s' ∧ AtField s' all := by
  obtain ⟨other, ho⟩ := h.feed_eq hd
  refine ⟨_, by rw [ho, feedOutside, if_pos rfl], ?_⟩
  exact ⟨by simp [closeField], by simp [closeField], by simp [closeField, h.fields], by simp [closeField, h.pending]⟩

/-- A line break ends the record. -/
theorem feed_break (h : Completes s all) (hb : isLineBreak c = true) (hd : c ≠ s.delimiter) :
    s.feed c = .record all := by
  have hc : c ≠ quote := by rintro rfl; simp [isLineBreak, quote] at hb
  obtain ⟨other, ho⟩ := h.feed_eq hc
  rw [ho, feedOutside, if_neg hd, if_pos hb, closeField, h.fields]

/-- The end of the text ends the record, if there was text. -/
theorem finish (h : Completes s all) (hs : s.started = true) : s.finish = some all := by
  simp [Scanner.finish, hs, h.pending, closeField, h.fields]

end Completes

theorem AtField.completes {done : List String} (h : AtField s done) : Completes s (done ++ [""]) where
  mode := by rw [h.mode]; decide
  fields := by rw [h.fields, h.field]
  pending := h.pending

end DelimitedText.Scanner
