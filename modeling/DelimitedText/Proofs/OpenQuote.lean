import DelimitedText.Proofs.DeadEnd
import DelimitedText.Proofs.FirstRecord
import DelimitedText.Proofs.Terminators

/-!
# Quotes that are still open at the end of a text

A text that ends within a quoted field is refused by splitting and by reading, with one context and on the line on which
it ends (`EndsInQuotes.exists_endsIn`, `EndsIn.splitLine_eq`, `EndsIn.read_eq`). The column that splitting reports is
the length of the whole text, and that is the column of its end only if it is one line (`open_quote_place`).

The context is the open field as far as it was decoded. One closing quote completes the field, and makes content of a
backslash at the end of the text, which still waits for a letter (`Scanner.pendingBackslash_of_scan`). This backslash is
what the context lacks (`open_quote_context`).
-/

namespace DelimitedText

namespace Scanner

open Mode

variable {s s' : Scanner} {c : Char} {d : Char} {p : LineBreaks} {line : Nat} {text : List Char}

/-! ## The backslash that waits -/

theorem pendingBackslash_feedQuotedPlain (h : s.pendingBackslash = false) (c : Char) :
    (s.feedQuotedPlain c).pendingBackslash = true ↔ c = '\\' ∧ s.lineBreaks = .escaped := by
  unfold feedQuotedPlain
  by_cases hq : c = quote
  · subst hq
    simp [h, quote]
  · by_cases he : c = '\\' ∧ s.lineBreaks = .escaped
    · simp [he, quote]
    · simp [hq, he, h, push]

/-- Inside quotes an escaping scanner lets every backslash wait, even one that another backslash precedes. -/
theorem pendingBackslash_feedQuoted (s : Scanner) (c : Char) :
    (s.feedQuoted c).pendingBackslash = true ↔ c = '\\' ∧ s.lineBreaks = .escaped := by
  unfold feedQuoted
  cases h : s.pendingBackslash with
  | false => exact pendingBackslash_feedQuotedPlain h c
  | true =>
    dsimp only
    by_cases hn : c = 'n'
    · simp [hn, push]
    by_cases hr : c = 'r'
    · simp [hr, push]
    rw [if_pos rfl, if_neg hn, if_neg hr]
    exact pendingBackslash_feedQuotedPlain rfl c

/-- Where a character leaves the scanner inside quotes, a backslash waits iff it is that character. -/
theorem pendingBackslash_of_feed (outside : s.mode ≠ quoted → s.pendingBackslash = false) (h : s.feed c = .more s')
    (inside : s'.mode = quoted) : s'.pendingBackslash = true ↔ c = '\\' ∧ s.lineBreaks = .escaped := by
  have crossing := (mode_of_feed h).1 inside
  by_cases hm : s.mode = quoted
  · rw [feed, hm] at h
    cases h
    rw [moved_pendingBackslash, pendingBackslash_feedQuoted]
  · -- only a quote leads inside from outside, and no backslash waits there
    obtain rfl : c = quote := by simpa [hm] using crossing
    have waits : s'.pendingBackslash = s.pendingBackslash := by
      unfold feed at h
      cases hs : s.mode with
      | fieldStart => rw [hs] at h; cases h; exact moved_pendingBackslash _ _
      | bare => rw [hs] at h; cases h
      | quoted => exact absurd hs hm
      | quoteSeen => rw [hs] at h; cases h; exact moved_pendingBackslash _ _
    rw [waits, outside hm]
    simp [quote]

/-- **A run that ends inside quotes** has a backslash waiting iff the text ends in one and the policy decodes it. -/
theorem pendingBackslash_of_scan (run : (start d p line).scan text = .unfinished s) (inside : s.mode = quoted) :
    s.pendingBackslash = true ↔ text.getLast? = some '\\' ∧ p = .escaped := by
  rcases List.eq_nil_or_concat' text with rfl | ⟨before, c, rfl⟩
  · cases run
    cases inside
  · obtain ⟨s₁, run₁, fed⟩ := scan_concat_eq_unfinished run
    have outside : s₁.mode ≠ quoted → s₁.pendingBackslash = false :=
      fun hm => (exists_cells_of_scan run₁ hm).1.pending
    rw [pendingBackslash_of_feed outside fed inside, (run_of_scan run₁).lineBreaks, List.getLast?_concat,
      Option.some.injEq]
    rfl

end Scanner

/-! ## Texts that end in quotes -/

instance (text : String) (d : Char) (p : LineBreaks) : Decidable (EndsInQuotes text d p) :=
  match h : (Scanner.start d p 1).scan text.toList with
  | .unfinished s => decidable_of_iff (s.isQuoteOpen = true) (by simp [EndsInQuotes, h])
  | .record .. => isFalse (by simp [EndsInQuotes, h])
  | .misplaced .. => isFalse (by simp [EndsInQuotes, h])

/-- The state at the end of a text that ends in quotes and begins on line 0. -/
structure EndsIn (text : String) (d : Char) (p : LineBreaks) (s : Scanner) : Prop where
  inside : s.InQuotes s.fields
  line : s.line = text.toList.count '\n'
  pending : s.pendingBackslash = true ↔ text.toList.getLast? = some '\\' ∧ p = .escaped
  scan : ∀ line, (Scanner.start d p line).scan text.toList = .unfinished (s.below line)

section EndsIn

variable {text : String} {d : Char} {p : LineBreaks} {s : Scanner}

theorem EndsInQuotes.exists_endsIn (h : EndsInQuotes text d p) : ∃ s, EndsIn text d p s := by
  obtain ⟨t, run, quoteOpen⟩ := h
  have inside : t.mode = .quoted := by simpa [Scanner.isQuoteOpen] using quoteOpen
  rw [Scanner.scan_start] at run
  cases zero : (Scanner.start d p 0).scan text.toList with
  | unfinished s =>
    rw [zero] at run
    cases run
    have counted := Scanner.run_of_scan zero
    have pending := Scanner.pendingBackslash_of_scan zero inside
    have quoted : s.InQuotes s.fields := ⟨inside, rfl, fun waits => counted.lineBreaks.trans (pending.1 waits).2⟩
    refine ⟨s, quoted, counted.line.trans (Nat.zero_add _), pending, fun line => ?_⟩
    rw [Scanner.scan_start, zero]
    rfl
  | record fields line rest => rw [zero] at run; cases run
  | misplaced error line rest => rw [zero] at run; cases run

namespace EndsIn

theorem isQuoteOpen (h : EndsIn text d p s) (line : Nat) : (s.below line).isQuoteOpen = true :=
  decide_eq_true h.inside.mode

/-- Splitting reports the open field on the line of its end. -/
theorem splitLine_eq (h : EndsIn text d p s) :
    splitLine text d p = .error (.misplacedQuote (1 + text.toList.count '\n') text.length s.field) := by
  rw [splitLine, h.scan]
  dsimp only
  rw [if_pos (h.isQuoteOpen 1), Nat.add_comm, ← h.line]
  rfl

/-- Reading reports the open field on the line of its end. -/
theorem read_eq (h : EndsIn text d p s) {r : Reader} (hd : r.delimiter = d) (hp : r.lineBreaks = p)
    (rests : r.Rests (Utf8.encode text.toList)) :
    r.read.1 = .error (.unclosedQuote (r.line + text.toList.count '\n') s.field) := by
  rw [rests.read.result, Scanner.readBytes_encode, hd, hp, h.scan]
  dsimp only
  rw [Scanner.atEnd, if_pos (h.isQuoteOpen r.line), Nat.add_comm, ← h.line]
  rfl

/-- A closing quote completes the open field. -/
theorem splitLine_push_quote (h : EndsIn text d p s) :
    splitLine (text.push quote) d p = .ok (s.fields ++ [String.ofList (s.field.toList ++ s.carry)]) := by
  have inside : (s.below 1).InQuotes s.fields := ⟨h.inside.mode, rfl, h.inside.pending⟩
  obtain ⟨t, fed, mode, fields, pending, -, field⟩ := inside.feed_quote
  have run : (Scanner.start d p 1).scan (text.toList ++ [quote]) = .unfinished t := by
    rw [Scanner.scan_append (h.scan 1), Scanner.scan_cons fed]
    rfl
  have completes : t.Completes (s.fields ++ [String.ofList (s.field.toList ++ s.carry)]) := by
    refine ⟨by rw [mode]; decide, ?_, pending⟩
    rw [fields, ← String.ofList_toList (s := t.field), field, Scanner.reading_nil]
    rfl
  have closed : text.push quote = String.ofList (text.toList ++ [quote]) := by
    rw [← String.toList_inj, String.toList_push, String.toList_ofList]
  rw [closed]
  exact splitLine_of_completes run completes (by simp)

/-- The backslash that waits is the last character of the text. -/
theorem carry_eq (h : EndsIn text d p s) : String.ofList (s.field.toList ++ s.carry) =
    if text.toList.getLast? = some '\\' ∧ p = .escaped then s.field.push '\\' else s.field := by
  rw [Scanner.carry, if_congr h.pending rfl rfl]
  split
  · rw [← String.toList_inj, String.toList_ofList, String.toList_push]
  · rw [List.append_nil, String.ofList_toList]

end EndsIn

end EndsIn

/-! ## Where the text ends -/

/-- The last line of a text is all of it iff the text has no line feed. -/
theorem columnBehind_eq_length_iff (text : List Char) : columnBehind text = text.length ↔ '\n' ∉ text := by
  unfold columnBehind
  have whole : (text.rtakeWhile (· ≠ '\n')).length = text.length ↔ text.rtakeWhile (· ≠ '\n') = text :=
    ⟨(List.rtakeWhile_suffix _ text).eq_of_length, congrArg List.length⟩
  rw [whole, List.rtakeWhile_eq_self_iff]
  constructor
  · intro h hm
    simpa using h '\n' hm
  · intro h c hc
    simpa using ne_of_mem_of_not_mem hc h

/-- **The place of an open quote.** A text that ends in quotes is refused on the line on which it ends. The column is
the length of the whole text, and this is where the text ends just when it is a single line. -/
theorem open_quote_place {text : String} {d : Char} {p : LineBreaks} (h : EndsInQuotes text d p) :
    (∃ context, splitLine text d p = .error (.misplacedQuote (1 + text.toList.count '\n') text.length context)) ∧
    (text.length = columnBehind text.toList ↔ '\n' ∉ text.toList) := by
  obtain ⟨s, ends⟩ := h.exists_endsIn
  refine ⟨⟨s.field, ends.splitLine_eq⟩, ?_⟩
  rw [eq_comm, ← String.length_toList]
  exact columnBehind_eq_length_iff text.toList

/-- A closed field with the delimiter in it, and an open one with a line break and a doubled quote at its end. -/
theorem open_quote_place_doubled :
    let text := "\";\";\"\r\né\"\""
    EndsInQuotes text ';' .escaped ∧
      (∃ context, splitLine text ';' .escaped = .error (.misplacedQuote 2 10 context)) ∧
      text.length ≠ columnBehind text.toList := by
  intro text
  have ends : EndsInQuotes text ';' .escaped := by decide
  have lineFeeds : text.toList.count '\n' = 1 := by decide
  have length : text.length = 10 := by decide
  obtain ⟨place, column⟩ := open_quote_place ends
  rw [lineFeeds, length] at place
  exact ⟨ends, place, fun h => column.1 h (by decide)⟩

/-- A text that ends behind the first character of its second line is refused in another column. -/
theorem open_quote_behind_its_line :
    let text := "\"a\nb"
    EndsInQuotes text ',' .raw ∧ columnBehind text.toList = 1 ∧
      ∀ line context, splitLine text ',' .raw ≠ .error (.misplacedQuote line (columnBehind text.toList) context) := by
  intro text
  have quoteOpen : EndsInQuotes text ',' .raw := by decide
  have length : text.length = 4 := by decide
  have column : columnBehind text.toList = 1 := by decide
  obtain ⟨s, ends⟩ := quoteOpen.exists_endsIn
  refine ⟨quoteOpen, column, fun line context h => ?_⟩
  rw [ends.splitLine_eq, length, column] at h
  cases h

/-! ## What was read of the open field -/

/-- **The context of an open quote.** A text that ends in quotes is refused by splitting and by reading with one
context. Behind a closing quote the text has a last field, and that is the context, but for a backslash at the end of
the text: where backslashes are decoded it belongs to the field and is missing in the context. -/
theorem open_quote_context {text : String} {d : Char} {p : LineBreaks} (h : EndsInQuotes text d p) :
    ∃ (context : String) (fields : List String),
      (∃ line column, splitLine text d p = .error (.misplacedQuote line column context)) ∧
      (∀ r : Reader, r.delimiter = d → r.lineBreaks = p → r.Rests (Utf8.encode text.toList) →
        r.read.1 = .error (.unclosedQuote (r.line + text.toList.count '\n') context)) ∧
      splitLine (text.push quote) d p = .ok (fields ++
        [if text.toList.getLast? = some '\\' ∧ p = .escaped then context.push '\\' else context]) := by
  obtain ⟨s, ends⟩ := h.exists_endsIn
  refine ⟨s.field, s.fields, ⟨_, _, ends.splitLine_eq⟩, fun r hd hp rests => ends.read_eq hd hp rests, ?_⟩
  rw [ends.splitLine_push_quote, ends.carry_eq]

/-- A literal, and a backslash behind it at the end of the text. -/
theorem open_quote_context_literal :
    let text := "a,\"\\n\\"
    EndsInQuotes text ',' .escaped ∧ ∃ (context : String) (fields : List String),
      (∃ line column, splitLine text ',' = .error (.misplacedQuote line column context)) ∧
      splitLine (text.push quote) ',' = .ok (fields ++ [context.push '\\']) := by
  intro text
  have ends : EndsInQuotes text ',' .escaped := by decide
  obtain ⟨context, fields, refused, -, closed⟩ := open_quote_context ends
  rw [if_pos (by decide)] at closed
  exact ⟨ends, context, fields, refused, closed⟩

/-- A field of one backslash is reported as an empty one. -/
theorem open_quote_loses_backslash :
    let text := "\"\\"
    let r := Reader.fresh ⟨[.chunk [34, 92]], 0⟩ ',' .escaped
    (EndsInQuotes text ',' .escaped ∧ r.source.unread = Utf8.encode text.toList) ∧
      splitLine text ',' = .error (.misplacedQuote 1 2 "") ∧ r.read.1 = .error (.unclosedQuote 1 "") ∧
      splitLine (text.push quote) ',' = .ok ["\\"] := by
  intro text r
  have quoteOpen : EndsInQuotes text ',' .escaped := by decide
  have unread : r.source.unread = Utf8.encode text.toList := by decide
  have rests : r.Rests (Utf8.encode text.toList) := unread ▸ Reader.rests_fresh (by decide) ',' .escaped
  have scan : (Scanner.start ',' .escaped 1).scan text.toList = .unfinished { Scanner.start ',' .escaped 1 with
      column := 2, mode := .quoted, pendingBackslash := true, started := true } := by decide
  obtain ⟨s, ends⟩ := quoteOpen.exists_endsIn
  have field : s.field = "" :=
    congrArg Scanner.field (Scanner.Outcome.unfinished.inj ((ends.scan 1).symm.trans scan))
  have lineFeeds : text.toList.count '\n' = 0 := by decide
  have length : text.length = 2 := by decide
  have closed : text.push quote = "\"\\\"" := by decide
  refine ⟨⟨quoteOpen, unread⟩, ?_, ?_, ?_⟩
  · rw [ends.splitLine_eq, field, lineFeeds, length]
  · rw [ends.read_eq rfl rfl rests, field, lineFeeds]
    rfl
  · rw [closed]
    rfl

end DelimitedText
