import DelimitedText.Line.Split
import DelimitedText.Proofs.Reading

/-!
# Reading the first record and splitting

A text can be split as one line, or delivered by a source and read. `read_eq_split` compares the two: the first record
of a fresh reader is the result of splitting, and where splitting fails, reading fails at the same place with the same
context. Only a quote that is still open at the end is reported in two ways.
-/

namespace DelimitedText

/-- Whether splitting a text fails at one of its characters. -/
def FailsWithin (text : String) (d : Char) (p : LineBreaks) : Prop :=
  ∃ error line rest, (Scanner.start d p 1).scan text.toList = .misplaced error line rest

/-- Whether a text ends within a quoted field. -/
def EndsInQuotes (text : String) (d : Char) (p : LineBreaks) : Prop :=
  ∃ s, (Scanner.start d p 1).scan text.toList = .unfinished s ∧ s.isQuoteOpen = true

namespace Scanner

variable {s : Scanner} {text : List Char} {fields : List String}

theorem ne_nil_of_scan {line : Nat} {rest : List Char} (h : s.scan text = .record fields line rest) : fields ≠ [] := by
  obtain ⟨a, c, b, s', -, -, hc, -⟩ := scan_eq_record h
  rw [(feed_eq_record hc).2.2]
  simp

/-- A record that the end of the text completes has a field. -/
theorem ne_nil_of_finish (h : s.finish = some fields) : fields ≠ [] := by
  unfold finish at h
  split at h
  · cases h; simp [closeField]
  · cases h

end Scanner

/-- **Reading and splitting agree** on every text, however its bytes are delivered. -/
theorem read_eq_split {source : Source} {text : String} (hs : source.IsPlain)
    (ht : source.unread = Utf8.encode text.toList) (d : Char) (p : LineBreaks) :
    ((Reader.fresh source d p).read.1 = .ok none ↔ splitLine text d p = .ok []) ∧
    (splitLine text d p = .ok [] ↔ text = "") ∧
    (∀ fields, (Reader.fresh source d p).read.1 = .ok (some fields) ↔
      splitLine text d p = .ok fields ∧ fields ≠ []) ∧
    (∀ line column context, (Reader.fresh source d p).read.1 = .error (.misplacedQuote line column context) ↔
      splitLine text d p = .error (.misplacedQuote line column context) ∧ FailsWithin text d p) ∧
    (∀ line context, (Reader.fresh source d p).read.1 = .error (.unclosedQuote line context) ↔
      splitLine text d p = .error (.misplacedQuote line text.length context) ∧ EndsInQuotes text d p) := by
  have read : (Reader.fresh source d p).read.1 =
      ((Scanner.start d p 1).readBytes (Utf8.encode text.toList)).result :=
    ht ▸ (Reader.rests_fresh hs d p).read.result
  rw [read, Scanner.readBytes_encode]
  unfold splitLine FailsWithin EndsInQuotes
  cases h : (Scanner.start d p 1).scan text.toList with
  | record fields line rest =>
    have some_ := Scanner.ne_nil_of_scan h
    have text_ : text ≠ "" := by rintro rfl; cases h
    refine ⟨?_, ?_, ?_, ?_, ?_⟩ <;> simp [some_, text_]
  | misplaced error line rest =>
    have text_ : text ≠ "" := by rintro rfl; cases h
    obtain ⟨a, c, s, -, -, hc, -⟩ := Scanner.scan_eq_misplaced h
    obtain ⟨-, context, rfl⟩ := Scanner.feed_eq_misplaced hc
    refine ⟨?_, ?_, ?_, ?_, ?_⟩ <;> simp [text_]
  | unfinished s =>
    have run := Scanner.run_of_scan h
    have none_ : s.finish = none ↔ text = "" := by
      rw [Scanner.finish_eq_none_iff, run.started]
      simp [Scanner.start]
    unfold Scanner.atEnd
    cases hq : s.isQuoteOpen with
    | true =>
      have text_ : text ≠ "" := by rintro rfl; cases h; cases hq
      refine ⟨?_, ?_, ?_, ?_, ?_⟩ <;> simp [text_, hq]
    | false =>
      cases hf : s.finish with
      | none => refine ⟨?_, ?_, ?_, ?_, ?_⟩ <;> simp_all
      | some fields =>
        have some_ := Scanner.ne_nil_of_finish hf
        refine ⟨?_, ?_, ?_, ?_, ?_⟩ <;> simp_all

/-- Chunks that end within the break that a field holds, within a character, and behind the break of the record. -/
theorem read_eq_split_chunks :
    let source : Source := ⟨[.chunk [34, 97, 13], .chunk [10, 34, 44, 195], .chunk [164, 13], .chunk [98]], 0⟩
    let text := "\"a\r\n\",ä\rb"
    (source.IsPlain ∧ source.unread = Utf8.encode text.toList) ∧
      (Reader.ofSource source ',').read.1 = .ok (some ["a\r\n", "ä"]) := by
  intro source text
  have plain : source.IsPlain := by decide
  have unread : source.unread = Utf8.encode text.toList := by decide
  have scan : (Scanner.start ',' .raw 1).scan text.toList = .record ["a\r\n", "ä"] 2 ['b'] := by decide
  obtain ⟨-, -, record, -⟩ := read_eq_split plain unread ',' .raw
  rw [Reader.ofSource_eq_fresh]
  exact ⟨⟨plain, unread⟩, (record _).2 ⟨by rw [splitLine, scan], by decide⟩⟩

end DelimitedText
