import DelimitedText.Line.Split
import DelimitedText.Proofs.Calls
import DelimitedText.Proofs.LineShift
import Mathlib.Data.List.DropRight

/-!
# Misplaced quotes are reported at the earliest character

The text up to a state of the scanner can still become a text that is accepted: one closing quote is enough
(`Scanner.exists_closed`). Behind a misplaced quote it cannot any more, whatever follows. So scanning stops at the first
character behind which there is no way to go on (`DeadEnd`), and the error names the place of that character, on the
line and in the column to which the line feeds in front of it lead (`misplaced_at_dead_end`).
-/

namespace DelimitedText

/-- The number of characters behind the last line feed of a text. -/
def columnBehind (text : List Char) : Nat :=
  (text.rtakeWhile (· ≠ '\n')).length

/-- Whether splitting accepts a text. -/
def SplitGives (d : Char) (p : LineBreaks) (text : List Char) (ok : Bool) : Prop :=
  (splitLine (String.ofList text) d p).isOk = ok

/-- Whether reading accepts a text, on whatever line it begins and however its bytes are delivered. -/
def ReadGives (d : Char) (p : LineBreaks) (text : List Char) (ok : Bool) : Prop :=
  ∀ r : Reader, r.delimiter = d → r.lineBreaks = p → r.Rests (Utf8.encode text) → r.read.1.isOk = ok

/-- A text that can still be accepted, and a character behind which it cannot any more. -/
structure DeadEnd (gives : List Char → Bool → Prop) (before : List Char) (c : Char) : Prop where
  viable : ∃ more, gives (before ++ more) true
  dead : ∀ more, gives (before ++ c :: more) false

namespace Scanner

variable {s s' : Scanner} {c : Char} {d : Char} {p : LineBreaks} {line : Nat} {text before : List Char}

/-! ## The place of a character -/

theorem column_of_feed (h : s.feed c = .more s') : s'.column = if c = '\n' then 0 else s.column + 1 := by
  obtain ⟨t, rfl, -, -, -, hc⟩ := exists_moved_of_feed h
  rw [moved_column, hc]

theorem columnBehind_concat (text : List Char) (c : Char) :
    columnBehind (text ++ [c]) = if c = '\n' then 0 else columnBehind text + 1 := by
  unfold columnBehind
  rw [List.rtakeWhile_concat]
  by_cases hc : c = '\n'
  · simp [hc]
  · simp [hc]

/-- A run from the beginning of a record counts the characters of its last line. -/
theorem column_of_scan (h : (start d p line).scan text = .unfinished s) : s.column = columnBehind text := by
  induction text using List.reverseRecOn generalizing s with
  | nil => cases h; rfl
  | append_singleton text c ih =>
    obtain ⟨s₁, run, fed⟩ := scan_concat_eq_unfinished h
    rw [column_of_feed fed, columnBehind_concat, ih run]

/-- A misplaced quote is reported at the place to which the text in front of it leads. -/
theorem misplaced_place {error : Error} (run : (start d p line).scan before = .unfinished s)
    (hc : s.feed c = .misplaced error) : ∃ context,
      error = .misplacedQuote (line + before.count '\n') (1 + columnBehind before) context := by
  obtain ⟨-, context, rfl⟩ := feed_eq_misplaced hc
  refine ⟨context, ?_⟩
  rw [(run_of_scan run).line, column_of_scan run, Nat.add_comm 1]
  rfl

/-! ## Ways to go on -/

/-- From every state a text goes on to an end outside quotes. -/
theorem exists_closed (s : Scanner) : ∃ more t, s.scan more = .unfinished t ∧ t.isQuoteOpen = false := by
  cases hq : s.isQuoteOpen with
  | false => exact ⟨[], s, rfl, hq⟩
  | true =>
    have quoted : s.mode = .quoted := by simpa [isQuoteOpen] using hq
    have fed : s.feed quote = .more ((s.feedQuoted quote).moved quote) := by rw [feed, quoted]
    refine ⟨[quote], _, scan_cons fed [], ?_⟩
    rw [isQuoteOpen, moved_mode, mode_feedQuoted, if_pos rfl]
    rfl

/-- Whether a text that comes out so is accepted. -/
def Outcome.isAccepted : Outcome → Bool
  | .unfinished s => !s.isQuoteOpen
  | .record .. => true
  | .misplaced .. => false

theorem Outcome.isAccepted_below (k : Nat) (outcome : Outcome) :
    (outcome.below k).isAccepted = outcome.isAccepted := by
  cases outcome <;> rfl

/-- The line on which a text begins has no say in whether it is accepted. -/
theorem isAccepted_scan_start (d : Char) (p : LineBreaks) (line line' : Nat) (text : List Char) :
    ((start d p line).scan text).isAccepted = ((start d p line').scan text).isAccepted := by
  rw [scan_start d p line, scan_start d p line', Outcome.isAccepted_below, Outcome.isAccepted_below]

end Scanner

theorem isOk_splitLine (text : String) (d : Char) (p : LineBreaks) :
    (splitLine text d p).isOk = ((Scanner.start d p 1).scan text.toList).isAccepted := by
  unfold splitLine
  cases (Scanner.start d p 1).scan text.toList with
  | record fields line rest => rfl
  | misplaced error line rest => rfl
  | unfinished s =>
    dsimp only [Scanner.Outcome.isAccepted]
    cases s.isQuoteOpen <;> rfl

theorem Reader.Rests.isOk_read {r : Reader} {text : List Char} (h : r.Rests (Utf8.encode text)) :
    r.read.1.isOk = ((Scanner.start r.delimiter r.lineBreaks r.line).scan text).isAccepted := by
  rw [h.read.result, Scanner.readBytes_encode]
  cases (Scanner.start r.delimiter r.lineBreaks r.line).scan text with
  | record fields line rest => rfl
  | misplaced error line rest => rfl
  | unfinished s =>
    dsimp only [Scanner.Outcome.isAccepted, Scanner.atEnd]
    cases s.isQuoteOpen <;> rfl

namespace Scanner

variable {s : Scanner} {c : Char} {d : Char} {p : LineBreaks} {line : Nat} {before : List Char} {error : Error}

/-- The text of a run can still be accepted. -/
theorem exists_isAccepted (run : (start d p line).scan before = .unfinished s) (line' : Nat) :
    ∃ more, ((start d p line').scan (before ++ more)).isAccepted = true := by
  obtain ⟨more, t, closes, closed⟩ := s.exists_closed
  refine ⟨more, ?_⟩
  rw [isAccepted_scan_start d p line' line, scan_append run, closes, Outcome.isAccepted, closed]
  rfl

/-- Behind a misplaced quote nothing is accepted. -/
theorem isAccepted_of_misplaced (run : (start d p line).scan before = .unfinished s)
    (hc : s.feed c = .misplaced error) (line' : Nat) (more : List Char) :
    ((start d p line').scan (before ++ c :: more)).isAccepted = false := by
  rw [isAccepted_scan_start d p line' line, scan_of_misplaced run hc]
  rfl

theorem splitGives_deadEnd (run : (start d p line).scan before = .unfinished s) (hc : s.feed c = .misplaced error) :
    DeadEnd (SplitGives d p) before c := by
  constructor
  · obtain ⟨more, accepted⟩ := exists_isAccepted run 1
    refine ⟨more, ?_⟩
    rw [SplitGives, isOk_splitLine, String.toList_ofList, accepted]
  · intro more
    rw [SplitGives, isOk_splitLine, String.toList_ofList, isAccepted_of_misplaced run hc]

theorem readGives_deadEnd (run : (start d p line).scan before = .unfinished s) (hc : s.feed c = .misplaced error) :
    DeadEnd (ReadGives d p) before c := by
  constructor
  · obtain ⟨more, accepted⟩ := exists_isAccepted run line
    refine ⟨more, fun r hd hp rests => ?_⟩
    rw [rests.isOk_read, hd, hp, isAccepted_scan_start d p r.line line, accepted]
  · intro more r hd hp rests
    rw [rests.isOk_read, hd, hp, isAccepted_of_misplaced run hc]

end Scanner

/-! ## Reading up to a misplaced quote -/

namespace Reader

/-- The text of a line that was taken stood in front of what is left. -/
theorem encode_pending_of_refill {r r' : Reader} (h : r.refill = (.ok true, r')) :
    Utf8.encode r'.pending ++ r'.source.unread = r.source.unread := by
  have given := r.refills
  rw [h] at given
  cases given with
  | line bytes =>
    rw [← bytes]
    exact Source.bytes_append_takeLine r.source.events

/-- A read that meets a misplaced quote has scanned the text in front of it, however the source delivered it. -/
theorem exists_misplaced_of_readFrom {r : Reader} {first : Nat} {s : Scanner} {line column : Nat} {context : String}
    (h : (r.readFrom first s).1 = .error (.misplacedQuote line column context)) : ∃ before c rest s',
      Utf8.encode r.pending ++ r.source.unread =
        Utf8.encode (before ++ c :: rest) ++ (r.readFrom first s).2.source.unread ∧
      s.scan before = .unfinished s' ∧ s'.feed c = .misplaced (.misplacedQuote line column context) := by
  fun_induction readFrom r first s with
  | case1 => cases h
  | case2 r s continued error last rest hs =>
    obtain ⟨before, c, s', cut, run, hc, -⟩ := Scanner.scan_eq_misplaced hs
    cases h
    exact ⟨before, c, rest, s', by rw [cut], run, hc⟩
  | case3 r s continued s' hs error r' hr =>
    obtain ⟨message, rfl⟩ := exists_io_of_refill hr
    cases h
  | case4 r s continued s' hs r' hr ih =>
    obtain ⟨before, c, rest, t, cut, run, hc⟩ := ih h
    have line := encode_pending_of_refill hr
    have taken : Utf8.encode r'.pending ++ r'.source.unread = r.source.unread := line
    refine ⟨r.pending ++ before, c, rest, t, ?_, (Scanner.scan_append hs before).trans run, hc⟩
    rw [← taken, cut, List.append_assoc, Utf8.encode_append r.pending, List.append_assoc]
  | case5 => cases h
  | case6 => cases h

end Reader

/-- **Misplaced quotes are dead ends.** Where splitting or reading stops at a misplaced quote, the text in front of it
can still be accepted, no text that begins with it and the quote is, and the error has the line and the column to which
the text in front of it leads. -/
theorem misplaced_at_dead_end :
    (∀ (text : String) (d : Char) (p : LineBreaks) (error : Error) (line : Nat) (rest : List Char),
      (Scanner.start d p 1).scan text.toList = .misplaced error line rest →
      splitLine text d p = .error error ∧ ∃ before c context, text.toList = before ++ c :: rest ∧
        DeadEnd (SplitGives d p) before c ∧
        error = .misplacedQuote (1 + before.count '\n') (1 + columnBehind before) context) ∧
    ∀ (r : Reader) (line column : Nat) (context : String),
      r.read.1 = .error (.misplacedQuote line column context) → ∃ before c rest,
        Utf8.encode r.pending ++ r.source.unread = Utf8.encode (before ++ c :: rest) ++ r.read.2.source.unread ∧
        DeadEnd (ReadGives r.delimiter r.lineBreaks) before c ∧
        line = r.line + before.count '\n' ∧ column = 1 + columnBehind before := by
  constructor
  · intro text d p error line rest h
    obtain ⟨before, c, s, cut, run, hc, -⟩ := Scanner.scan_eq_misplaced h
    obtain ⟨context, place⟩ := Scanner.misplaced_place run hc
    exact ⟨by rw [splitLine, h], before, c, context, cut, Scanner.splitGives_deadEnd run hc, place⟩
  · intro r line column context h
    obtain ⟨before, c, rest, s, cut, run, hc⟩ := Reader.exists_misplaced_of_readFrom h
    obtain ⟨context', place⟩ := Scanner.misplaced_place run hc
    cases place
    exact ⟨before, c, rest, cut, Scanner.readGives_deadEnd run hc, rfl, rfl⟩

/-- A character behind a quoted field of two lines, split and delivered in two chunks. -/
theorem misplaced_at_dead_end_lines :
    let text := "\"a\n\"x,"
    let error : Error := .misplacedQuote 2 2 "a\n"
    let r := Reader.fresh ⟨[.chunk [34, 97], .chunk [10, 34, 120, 44]], 0⟩ ',' .raw
    ((Scanner.start ',' .raw 1).scan text.toList = .misplaced error 2 [','] ∧ r.read.1 = .error error) ∧
      (∃ before c, text.toList = before ++ c :: [','] ∧ DeadEnd (SplitGives ',' .raw) before c) ∧
      ∃ before c, DeadEnd (ReadGives ',' .raw) before c ∧ 2 = 1 + before.count '\n' ∧ 2 = 1 + columnBehind before := by
  intro text error r
  have scan : (Scanner.start ',' .raw 1).scan text.toList = .misplaced error 2 [','] := by decide
  have unread : r.source.unread = Utf8.encode text.toList := by decide
  have rests : r.Rests (Utf8.encode text.toList) := unread ▸ Reader.rests_fresh (by decide) ',' .raw
  have first : (Scanner.start r.delimiter r.lineBreaks r.line).scan text.toList = .misplaced error 2 [','] := scan
  have read : r.read.1 = .error error := by rw [rests.read.result, Scanner.readBytes_encode, first]
  obtain ⟨-, before, c, context, cut, splits, -⟩ := misplaced_at_dead_end.1 text ',' .raw error 2 [','] scan
  obtain ⟨before', c', rest, -, reads, line, column⟩ := misplaced_at_dead_end.2 r 2 2 "a\n" read
  exact ⟨⟨scan, read⟩, ⟨before, c, cut, splits⟩, before', c', reads, line, column⟩

end DelimitedText
