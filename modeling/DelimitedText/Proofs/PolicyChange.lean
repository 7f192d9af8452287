import DelimitedText.Proofs.Calls
import DelimitedText.Proofs.Grammar

/-!
# What does not depend on the policy

The policy of a reader bears on what quoted fields hold, and on nothing else. Two states of the scanner are `Alike` if
they differ at most in their policies and in the contents of fields. Whether a backslash is pending or not, a character
leads both to the same mode (`Scanner.mode_feedQuoted`), so alike states take alike steps (`Scanner.Alike.feed`) and
come to alike ends over a text (`Scanner.Alike.scan`).

So two readers that differ only in their policies take the same lines, and what one reads is of the `SameKind` as what
the other reads (`Reader.sameButPolicy_readFrom`). Where a line is split, both policies find the same cells
(`exists_cells_of_splitLine`), and the values of these differ by the literals in quoted cells.
-/

namespace DelimitedText

/-- Two results of a read that differ at most in what fields hold. -/
inductive SameKind : Except Error (Option (List String)) → Except Error (Option (List String)) → Prop where
  | nothing : SameKind (.ok none) (.ok none)
  | record {fields fields' : List String} (count : fields'.length = fields.length) :
      SameKind (.ok (some fields)) (.ok (some fields'))
  | misplaced (line column : Nat) (context context' : String) :
      SameKind (.error (.misplacedQuote line column context)) (.error (.misplacedQuote line column context'))
  | unclosed (line : Nat) (context context' : String) :
      SameKind (.error (.unclosedQuote line context)) (.error (.unclosedQuote line context'))
  | failed (message : String) : SameKind (.error (.io message)) (.error (.io message))

namespace Scanner

open Mode

variable {s t s' : Scanner} {c : Char}

/-! ## One character -/

/-- Two states that differ at most in their policies and in what fields hold. -/
structure Alike (s t : Scanner) : Prop where
  delimiter : t.delimiter = s.delimiter
  line : t.line = s.line
  column : t.column = s.column
  mode : t.mode = s.mode
  fields : t.fields.length = s.fields.length
  started : t.started = s.started

/-- Two steps that differ at most in the same way. -/
inductive Step.Alike : Step → Step → Prop where
  | more {s t : Scanner} (next : s.Alike t) : Step.Alike (.more s) (.more t)
  | record {fields fields' : List String} (count : fields'.length = fields.length) :
      Step.Alike (.record fields) (.record fields')
  | misplaced (line column : Nat) (context context' : String) :
      Step.Alike (.misplaced (.misplacedQuote line column context)) (.misplaced (.misplacedQuote line column context'))

theorem alike_start (d : Char) (p q : LineBreaks) (line : Nat) : (start d p line).Alike (start d q line) :=
  ⟨rfl, rfl, rfl, rfl, rfl, rfl⟩

theorem started_feedQuoted (s : Scanner) (c : Char) : (s.feedQuoted c).started = s.started := by
  unfold feedQuoted feedQuotedPlain
  dsimp only
  split_ifs <;> rfl

namespace Alike

theorem moved (h : Alike s t) (c : Char) : Alike (s.moved c) (t.moved c) := by
  unfold Scanner.moved
  split
  · exact ⟨h.delimiter, congrArg (· + 1) h.line, rfl, h.mode, h.fields, rfl⟩
  · exact ⟨h.delimiter, h.line, congrArg (· + 1) h.column, h.mode, h.fields, rfl⟩

theorem push (h : Alike s t) (a b : Char) : Alike (s.push a) (t.push b) :=
  ⟨h.delimiter, h.line, h.column, h.mode, h.fields, h.started⟩

theorem withMode (h : Alike s t) (mode : Mode) : Alike { s with mode } { t with mode } :=
  ⟨h.delimiter, h.line, h.column, rfl, h.fields, h.started⟩

theorem closeField (h : Alike s t) : Alike s.closeField t.closeField where
  delimiter := h.delimiter
  line := h.line
  column := h.column
  mode := rfl
  fields := by simp only [Scanner.closeField, List.length_append, h.fields, List.length_singleton]
  started := h.started

theorem feedQuoted (h : Alike s t) (c : Char) : Alike (s.feedQuoted c) (t.feedQuoted c) := by
  have hs := sameOutside_feedQuoted s c
  have ht := sameOutside_feedQuoted t c
  refine ⟨?_, ?_, ?_, ?_, ?_, ?_⟩
  · rw [ht.delimiter, hs.delimiter, h.delimiter]
  · rw [ht.line, hs.line, h.line]
  · rw [ht.column, hs.column, h.column]
  · rw [mode_feedQuoted, mode_feedQuoted, h.mode]
  · rw [ht.fields, hs.fields, h.fields]
  · rw [started_feedQuoted, started_feedQuoted, h.started]

theorem feedOutside (h : Alike s t) {other other' : Step} (ho : other.Alike other') :
    (s.feedOutside c other).Alike (t.feedOutside c other') := by
  unfold Scanner.feedOutside
  rw [h.delimiter]
  split_ifs
  · exact .more (h.closeField.moved c)
  · exact .record h.closeField.fields
  · exact ho

theorem misplacedQuote (h : Alike s t) (context context' : String) :
    (Step.misplaced (s.misplacedQuote context)).Alike (.misplaced (t.misplacedQuote context')) := by
  rw [Scanner.misplacedQuote, Scanner.misplacedQuote, h.line, h.column]
  exact .misplaced _ _ _ _

/-- **One character** leads alike states to alike steps. -/
theorem feed (h : Alike s t) (c : Char) : (s.feed c).Alike (t.feed c) := by
  unfold Scanner.feed
  rw [h.mode]
  cases s.mode with
  | fieldStart =>
    dsimp only
    by_cases hq : c = quote
    · rw [if_pos hq, if_pos hq]
      exact .more ((h.withMode quoted).moved c)
    · rw [if_neg hq, if_neg hq]
      exact h.feedOutside (.more (((h.withMode bare).push c c).moved c))
  | bare =>
    dsimp only
    by_cases hq : c = quote
    · rw [if_pos hq, if_pos hq]
      exact h.misplacedQuote _ _
    · rw [if_neg hq, if_neg hq]
      exact h.feedOutside (.more ((h.push c c).moved c))
  | quoted => exact .more ((h.feedQuoted c).moved c)
  | quoteSeen =>
    dsimp only
    by_cases hq : c = quote
    · rw [if_pos hq, if_pos hq]
      exact .more (((h.withMode quoted).push quote quote).moved c)
    · rw [if_neg hq, if_neg hq]
      exact h.feedOutside (h.misplacedQuote _ _)

end Alike

/-! ## Texts -/

/-- Two outcomes that differ at most in what fields hold. -/
inductive Outcome.Alike : Outcome → Outcome → Prop where
  | unfinished {s t : Scanner} (next : s.Alike t) : Outcome.Alike (.unfinished s) (.unfinished t)
  | record {fields fields' : List String} (count : fields'.length = fields.length) (line : Nat) (rest : List Char) :
      Outcome.Alike (.record fields line rest) (.record fields' line rest)
  | misplaced (line column : Nat) (context context' : String) (last : Nat) (rest : List Char) :
      Outcome.Alike (.misplaced (.misplacedQuote line column context) last rest)
        (.misplaced (.misplacedQuote line column context') last rest)

namespace Alike

/-- **A text** leads alike states to alike outcomes. -/
theorem scan (h : Alike s t) (text : List Char) : (s.scan text).Alike (t.scan text) := by
  induction text generalizing s t with
  | nil => exact .unfinished h
  | cons c text ih =>
    have fed := h.feed c
    rw [Scanner.scan, Scanner.scan, h.line]
    generalize s.feed c = step at fed ⊢
    generalize t.feed c = step' at fed ⊢
    cases fed with
    | more next => exact ih next
    | record count => exact .record count _ _
    | misplaced line column context context' => exact .misplaced _ _ _ _ _ _

theorem continuedLines (h : Alike s t) (text : List Char) : t.continuedLines text = s.continuedLines text := by
  induction text generalizing s t with
  | nil => rfl
  | cons c text ih =>
    have fed := h.feed c
    rw [Scanner.continuedLines, Scanner.continuedLines, h.mode]
    generalize s.feed c = step at fed ⊢
    generalize t.feed c = step' at fed ⊢
    cases fed with
    | more next =>
      dsimp only
      rw [next.line, ih next]
    | record count => rfl
    | misplaced line column context context' => rfl

/-- A record that the end of the text completes has one field more, whatever backslash is pending. -/
theorem finish (h : Alike s t) : SameKind (.ok s.finish) (.ok t.finish) := by
  unfold Scanner.finish
  rw [h.started]
  cases s.started with
  | false => exact .nothing
  | true =>
    have count : ∀ s : Scanner,
        (if s.pendingBackslash then s.push '\\' else s).closeField.fields.length = s.fields.length + 1 := by
      intro s
      split <;> simp [Scanner.closeField, Scanner.push]
    exact .record (by rw [count, count, h.fields])

/-- The end of the input comes out alike. -/
theorem atEnd (h : Alike s t) : SameKind s.atEnd t.atEnd := by
  unfold Scanner.atEnd isQuoteOpen
  rw [h.mode, h.line]
  split
  · exact .unclosed _ _ _
  · exact h.finish

end Alike

end Scanner

/-! ## Readers -/

namespace Reader

/-- The reader with another policy. -/
def withPolicy (r : Reader) (q : LineBreaks) : Reader :=
  { r with lineBreaks := q }

/-- What one reader gives and what another gives that differs in its policy. -/
structure SameButPolicy (q : LineBreaks) (given given' : Except Error (Option (List String)) × Reader) : Prop where
  kind : SameKind given.1 given'.1
  reader : given'.2 = given.2.withPolicy q

variable {r r₁ : Reader} {q : LineBreaks}

theorem refill_withPolicy (r : Reader) (q : LineBreaks) :
    (r.withPolicy q).refill = (r.refill.1, r.refill.2.withPolicy q) := by
  unfold withPolicy refill
  dsimp only
  split
  · rfl
  split
  · rfl
  split
  · rfl
  split <;> rfl

/-- The other reader asks for its next line in an alike state. -/
theorem readFrom_withPolicy {s t s' : Scanner} {result : Except Error Bool} (h : s.Alike t)
    (hs : s.scan r.pending = .unfinished s') (hr : (r.scanned s s').refill = (result, r₁)) (q : LineBreaks)
    (first : Nat) : ∃ t', s'.Alike t' ∧ (r.withPolicy q).readFrom first t = match (result, r₁.withPolicy q) with
      | (.error error, r) => (.error error, r)
      | (.ok true, r) => r.readFrom first t'
      | (.ok false, r) => (t'.atEnd, r) := by
  have scanned := h.scan r.pending
  rw [hs] at scanned
  generalize ht : t.scan r.pending = outcome at scanned
  cases scanned with
  | @unfinished _ t' next =>
    have same : (r.withPolicy q).scanned t t' = (r.scanned s s').withPolicy q := by
      simp only [withPolicy, Reader.scanned, next.line, h.continuedLines]
    have read : (r.withPolicy q).readFrom first t = _ := readFrom_of_unfinished ht
    rw [same, refill_withPolicy, hr] at read
    exact ⟨t', next, read⟩

/-- **One read** comes out the same but for what fields hold, and leaves the same lines. -/
theorem sameButPolicy_readFrom (r : Reader) (q : LineBreaks) (first : Nat) (s : Scanner) :
    ∀ {t : Scanner}, s.Alike t → SameButPolicy q (r.readFrom first s) ((r.withPolicy q).readFrom first t) := by
  fun_induction readFrom r first s
  case case1 r s continued fields line rest hs spanned =>
    intro t h
    have scanned := h.scan r.pending
    rw [hs] at scanned
    generalize ht : t.scan r.pending = outcome at scanned
    cases scanned with
    | record count =>
      rw [readFrom]
      simp only [withPolicy, ht, h.continuedLines]
      exact ⟨.record count, rfl⟩
  case case2 r s continued error line rest hs =>
    intro t h
    have scanned := h.scan r.pending
    rw [hs] at scanned
    generalize ht : t.scan r.pending = outcome at scanned
    cases scanned with
    | misplaced line column context context' =>
      rw [readFrom]
      simp only [withPolicy, ht, h.continuedLines]
      exact ⟨.misplaced _ _ _ _, rfl⟩
  case case3 r s continued s' hs error r₁ hr =>
    intro t h
    obtain ⟨message, rfl⟩ := exists_io_of_refill hr
    obtain ⟨t', -, read⟩ := readFrom_withPolicy h hs hr q first
    rw [read]
    exact ⟨.failed message, rfl⟩
  case case4 r s continued s' hs r₁ hr ih =>
    intro t h
    obtain ⟨t', next, read⟩ := readFrom_withPolicy h hs hr q first
    rw [read]
    exact ih next
  case case5 r s continued s' hs r₁ hr hq =>
    intro t h
    obtain ⟨t', next, read⟩ := readFrom_withPolicy h hs hr q first
    have kind := next.atEnd
    rw [Scanner.atEnd, if_pos hq] at kind
    rw [read]
    exact ⟨kind, rfl⟩
  case case6 r s continued s' hs r₁ hr hq =>
    intro t h
    obtain ⟨t', next, read⟩ := readFrom_withPolicy h hs hr q first
    have kind := next.atEnd
    rw [Scanner.atEnd, if_neg hq] at kind
    rw [read]
    exact ⟨kind, rfl⟩

theorem sameButPolicy_read (r : Reader) (q : LineBreaks) : SameButPolicy q r.read (r.withPolicy q).read :=
  sameButPolicy_readFrom r q r.line _ (Scanner.alike_start r.delimiter r.lineBreaks q r.line)

/-- **One call** leaves readers that differ in their policies so. -/
theorem snd_call_withPolicy (r : Reader) (q : LineBreaks) (c : Call) :
    ((r.withPolicy q).call c).2 = (r.call c).2.withPolicy q := by
  have same := sameButPolicy_read r q
  cases c with
  | record => exact same.reader
  | value shape =>
    rw [call, call, snd_readValue, snd_readValue]
    exact same.reader
  | item =>
    obtain ⟨kind, reader⟩ := same
    rw [call, call, snd_next, snd_next, reader]
    generalize r.read.1 = result at kind ⊢
    generalize (r.withPolicy q).read.1 = result' at kind ⊢
    cases kind <;> rfl

/-- **Any number of calls.** -/
theorem afterCalls_withPolicy (r : Reader) (q : LineBreaks) (calls : List Call) :
    (r.withPolicy q).afterCalls calls = (r.afterCalls calls).withPolicy q := by
  induction calls generalizing r with
  | nil => rfl
  | cons c calls ih => rw [afterCalls, afterCalls, snd_call_withPolicy, ih]

end Reader

/-! ## Lines -/

/-- Whether a cell is written in quotes. -/
def Cell.isQuoted : Cell → Bool
  | .bare _ => false
  | .quoted _ => true

/-- An escaping policy takes the literals of a quoted cell for line breaks, and reads a bare cell as it is. -/
theorem Cell.value_escaped (cell : Cell) :
    cell.value .escaped = if cell.isQuoted then decodeLiterals (cell.value .raw) else cell.value .raw := by
  cases cell <;> rfl

/-- A line that is split under one policy is split into the values of the same cells under any other. -/
theorem exists_cells_of_splitLine {text : String} {d : Char} {p : LineBreaks} {fields : List String}
    (h : splitLine text d p = .ok fields) (ht : text ≠ "") :
    ∃ cells, Spells d text.toList cells ∧ ∀ q, splitLine text d q = .ok (cellFields q cells) := by
  obtain ⟨line, ending, s, cut, he, hd, run, completes⟩ := exists_scan_of_splitLine h ht
  obtain ⟨-, cells, some_, valid, rfl, -, single⟩ := Scanner.exists_cells_of_scan run completes.mode
  refine ⟨cells, ⟨some_, valid, ending, he, cut⟩, ?_⟩
  intro q
  have several : 1 < cells.length → d ≠ quote := by
    intro several hq
    rw [single hq] at several
    omega
  obtain ⟨t, run', completes'⟩ : ∃ t, (Scanner.start d q 1).scan (joinCells d cells) = .unfinished t ∧
      t.Completes (cellFields q cells) :=
    Scanner.scan_cells cells (Scanner.atField_start d q 1) several some_ valid
  exact splitLine_of_scan run' completes' cut he hd ht

/-- Splitting fails at the same place under any policy. -/
theorem splitLine_eq_error {text : String} {d : Char} {p : LineBreaks} {error : Error}
    (h : splitLine text d p = .error error) (q : LineBreaks) : ∃ line column context context',
      error = .misplacedQuote line column context ∧
        splitLine text d q = .error (.misplacedQuote line column context') := by
  have alike := (Scanner.alike_start d p q 1).scan text.toList
  unfold splitLine at h ⊢
  generalize (Scanner.start d p 1).scan text.toList = outcome at alike h
  generalize (Scanner.start d q 1).scan text.toList = outcome' at alike ⊢
  cases alike with
  | record count line rest => cases h
  | misplaced line column context context' last rest =>
    cases h
    exact ⟨line, column, context, context', rfl, rfl⟩
  | @unfinished s t next =>
    have same : t.isQuoteOpen = s.isQuoteOpen := by rw [Scanner.isQuoteOpen, Scanner.isQuoteOpen, next.mode]
    dsimp only at h ⊢
    split at h
    · rename_i opened
      cases h
      refine ⟨s.line, text.length, s.field, t.field, rfl, ?_⟩
      rw [same, if_pos opened, next.line]
    · cases h

/-- **A policy changes what fields hold, and nothing else.** Every text is split under both policies or under none. If
it is split, then into the cells of one line: a field that is written in quotes is, under `LineBreaks.escaped`, what it
is under `LineBreaks.raw` with a line break in place of each literal, and any other field is the same. If it is not
split, it fails at the same line and column. Two readers that differ only in their policies, over any source and after
any calls, are on the same line of the same source, and what one of them reads is of the same kind as what the other
reads. -/
theorem policy_changes_contents (d : Char) :
    (∀ text : String,
      (∃ cells, (text = "" ∧ cells = [] ∨ Spells d text.toList cells) ∧
        splitLine text d .raw = .ok (cells.map fun cell => String.ofList (cell.value .raw)) ∧
        splitLine text d .escaped = .ok (cells.map fun cell =>
          String.ofList (if cell.isQuoted then decodeLiterals (cell.value .raw) else cell.value .raw))) ∨
      ∃ line column context context', splitLine text d .raw = .error (.misplacedQuote line column context) ∧
        splitLine text d .escaped = .error (.misplacedQuote line column context')) ∧
    ∀ (source : Source) (calls : List Call),
      let raw := (Reader.fresh source d .raw).afterCalls calls
      let escaped := (Reader.fresh source d .escaped).afterCalls calls
      SameKind raw.read.1 escaped.read.1 ∧ escaped.line = raw.line ∧ escaped.source = raw.source := by
  constructor
  · intro text
    cases h : splitLine text d .raw with
    | error error =>
      obtain ⟨line, column, context, context', rfl, h'⟩ := splitLine_eq_error h .escaped
      exact .inr ⟨line, column, context, context', rfl, h'⟩
    | ok fields =>
      refine .inl ?_
      by_cases ht : text = ""
      · subst ht
        cases h
        exact ⟨[], .inl ⟨rfl, rfl⟩, rfl, rfl⟩
      · obtain ⟨cells, spells, split⟩ := exists_cells_of_splitLine h ht
        refine ⟨cells, .inr spells, h ▸ split .raw, ?_⟩
        rw [split .escaped]
        simp only [cellFields, Cell.value_escaped]
  · intro source calls raw escaped
    have same : escaped = raw.withPolicy .escaped :=
      Reader.afterCalls_withPolicy (Reader.fresh source d .raw) .escaped calls
    rw [same]
    exact ⟨(Reader.sameButPolicy_read raw .escaped).kind, rfl, rfl⟩

end DelimitedText
