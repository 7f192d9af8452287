import DelimitedText.Proofs.Grammar
import DelimitedText.Proofs.WriteRead
import Mathlib.Data.List.Chain
import Mathlib.Data.List.Forall2

/-!
# Line breaks between records

A record may end in a line feed, in a carriage return, or in both. Quotes take turns in opening and closing, so a line
break is within quotes just when an odd number of them is in front of it (`Scanner.mode_of_scan`); a text that is split
and that breaks lines only there makes one record (`IsRecord`). The scanner reads such a text up to the break behind it,
whichever that is, and leaves what follows (`IsRecord.scan_terminated`). A carriage return by itself is a break of its
own unless a line feed is next, and a record begins with none unless it is empty; so what is read off a stream of
records are the records, whatever breaks stand between them, as long as no carriage return is next to the line feed of
an empty record (`reads_of_terminated`).
-/

namespace DelimitedText

/-! ## Records -/

/-- Each line break of a text has an odd number of quotes in front of it. -/
def BreaksInQuotes (text : List Char) : Prop :=
  ∀ i : Fin text.length, isLineBreak text[i] = true → ¬ 2 ∣ (text.take i).count quote

instance (text : List Char) : Decidable (BreaksInQuotes text) :=
  inferInstanceAs (Decidable (∀ i : Fin text.length, isLineBreak text[i] = true → ¬ 2 ∣ (text.take i).count quote))

/-- A text that makes one record of a stream: nothing, which is one empty field, or what is split into these fields and
breaks lines only within quotes. -/
inductive IsRecord (d : Char) (p : LineBreaks) : String → List String → Prop where
  | blank : IsRecord d p "" [""]
  | line {text : String} {fields : List String} (some : text ≠ "") (split : splitLine text d p = .ok fields)
      (breaks : BreaksInQuotes text.toList) : IsRecord d p text fields

/-- A line break with an even number of quotes in front of it. -/
theorem not_breaksInQuotes {a b : List Char} {c : Char} (hb : isLineBreak c = true) (ha : 2 ∣ a.count quote) :
    ¬ BreaksInQuotes (a ++ c :: b) := by
  intro h
  have odd := h ⟨a.length, by simp⟩
  simp only [Fin.getElem_fin, List.getElem_append_right (Nat.le_refl _), Nat.sub_self, List.getElem_cons_zero,
    List.take_left'] at odd
  exact odd hb ha

namespace Scanner

open Mode

variable {s s' : Scanner} {c : Char} {text : List Char}

/-- **One character.** A quote goes into quotes or out of them, and no other character does. -/
theorem mode_of_feed (h : s.feed c = .more s') : s'.mode = quoted ↔ (s.mode = quoted ↔ c ≠ quote) := by
  unfold feed feedOutside at h
  cases hm : s.mode with
  | quoted =>
    rw [hm] at h
    cases h
    rw [moved_mode, mode_feedQuoted, hm]
    by_cases hq : c = quote <;> simp [hq]
  | _ =>
    rw [hm] at h
    dsimp only at h
    split_ifs at h with hq <;> cases h <;> simp [push, closeField, hm, hq]

/-- **A text.** From outside quotes to inside, or back, leads an odd number of quotes. -/
theorem mode_of_scan : ∀ {text : List Char} {s : Scanner}, s.scan text = .unfinished s' →
    (s'.mode = quoted ↔ (s.mode = quoted ↔ 2 ∣ text.count quote))
  | [], s, h => by
    cases h
    simp
  | c :: text, s, h => by
    rw [scan] at h
    split at h
    · rename_i s₁ hf
      have first := mode_of_feed hf
      have rest := mode_of_scan h
      have parity : 2 ∣ (c :: text).count quote ↔ (c ≠ quote ↔ 2 ∣ text.count quote) := by
        by_cases hq : c = quote
        · rw [hq, List.count_cons_self]
          simp only [ne_eq, not_true_eq_false, false_iff]
          omega
        · rw [List.count_cons_of_ne hq]
          simp [hq]
      grind
    · cases h
    · cases h

/-- Outside quotes, an even number of them was fed. -/
theorem even_of_scan {d : Char} {p : LineBreaks} {line : Nat} (h : (start d p line).scan text = .unfinished s)
    (hm : s.mode ≠ quoted) : 2 ∣ text.count quote := by
  have mode := mode_of_scan h
  simp only [hm, start, reduceCtorEq, false_iff] at mode
  exact Decidable.not_not.1 mode

end Scanner

namespace IsRecord

variable {d : Char} {p : LineBreaks} {text : String} {fields : List String}

/-- A record is a number of cells, up to its end. -/
theorem exists_cells (h : IsRecord d p text fields) : ∃ cells, cells ≠ [] ∧ (∀ cell ∈ cells, cell.IsValid d) ∧
    text.toList = joinCells d cells ∧ fields = cellFields p cells := by
  cases h with
  | blank =>
    refine ⟨[.bare []], by simp, ?_, rfl, rfl⟩
    exact List.forall_mem_singleton.2 fun c hc => absurd hc List.not_mem_nil
  | line some_ split breaks =>
    obtain ⟨line, ending, s, cut, he, -, run, completes⟩ := exists_scan_of_splitLine split some_
    obtain ⟨-, cells, some', valid, joined, values, -⟩ := Scanner.exists_cells_of_scan run completes.mode
    refine ⟨cells, some', valid, ?_, completes.fields.symm.trans values⟩
    cases ending with
    | nil => rw [cut, List.append_nil, joined]
    | cons c ignored =>
      -- an ending is outside quotes, where this text does not break lines
      rw [cut] at breaks
      exact absurd breaks (not_breaksInQuotes (isEnding_cons_iff.1 he) (Scanner.even_of_scan run completes.mode))

/-- The scanner reads a record to its end, on whichever line it begins. -/
theorem scan (h : IsRecord d p text fields) (hd : d ≠ quote) (line : Nat) :
    ∃ s, (Scanner.start d p line).scan text.toList = .unfinished s ∧ s.Completes fields := by
  obtain ⟨cells, some_, valid, cut, rfl⟩ := h.exists_cells
  rw [cut]
  exact Scanner.scan_cells cells (Scanner.atField_start d p line) (fun _ => hd) some_ valid

/-- No record begins with a line break. -/
theorem head?_ne (h : IsRecord d p text fields) : text.toList.head? ≠ some '\n' := by
  cases h with
  | blank => simp
  | line some_ split breaks =>
    intro he
    obtain ⟨tail, ht⟩ := List.head?_eq_some_iff.1 he
    rw [ht] at breaks
    exact not_breaksInQuotes (a := []) rfl (Nat.dvd_zero 2) breaks

end IsRecord

/-! ## Breaks between records -/

/-- A line break behind a record. -/
inductive Terminator where
  | lineFeed
  | carriageReturn
  | both
  deriving DecidableEq

/-- The characters of a line break. -/
def Terminator.chars : Terminator → List Char
  | .lineFeed => ['\n']
  | .carriageReturn => ['\r']
  | .both => ['\r', '\n']

/-- The text of records, each with the line break behind it. -/
def terminatedText (lines : List (String × Terminator)) : List Char :=
  lines.flatMap fun line => line.1.toList ++ line.2.chars

theorem terminatedText_cons (text : String) (terminator : Terminator) (lines : List (String × Terminator)) :
    terminatedText ((text, terminator) :: lines) = text.toList ++ (terminator.chars ++ terminatedText lines) := by
  simp [terminatedText]

/-- The scanner reads a record up to the break behind it. -/
theorem IsRecord.scan_terminated {d : Char} {p : LineBreaks} {text : String} {fields : List String}
    (h : IsRecord d p text fields) (hd : isDelimiter d = true) (line : Nat) (terminator : Terminator)
    {behind : List Char} (hb : terminator = .carriageReturn → behind.head? ≠ some '\n') :
    ∃ last, (Scanner.start d p line).scan (text.toList ++ (terminator.chars ++ behind)) =
      .record fields last behind := by
  obtain ⟨hq, hn, hr⟩ := ne_of_isDelimiter hd
  obtain ⟨s, run, completes⟩ := h.scan hq line
  have delimiter : s.delimiter = d := (Scanner.run_of_scan run).delimiter
  have ends : ∀ c, isLineBreak c = true → c ≠ d → s.feed c = .record fields := by
    intro c hc hne
    exact completes.feed_break hc (by rwa [delimiter])
  refine ⟨s.line, ?_⟩
  cases terminator with
  | lineFeed =>
    rw [Terminator.chars, List.singleton_append, Scanner.scan_of_record run (ends '\n' rfl hn.symm),
      Scanner.behindBreak_lineFeed]
  | both => exact Scanner.scan_of_record run (ends '\r' rfl hr.symm) _
  | carriageReturn =>
    refine (Scanner.scan_of_record run (ends '\r' rfl hr.symm) _).trans ?_
    cases behind with
    | nil => rfl
    | cons next behind =>
      have hne : next ≠ '\n' := by
        rintro rfl
        exact hb rfl rfl
      simp [Scanner.behindBreak, hne]

/-- Between these two a carriage return is a break of its own: the other record is not an empty one in front of a line
feed. -/
def StaysApart (line next : String × Terminator) : Prop :=
  ¬ (line.2 = .carriageReturn ∧ next = ("", .lineFeed))

instance : DecidableRel StaysApart :=
  fun line next => inferInstanceAs (Decidable (¬ (line.2 = .carriageReturn ∧ next = ("", .lineFeed))))

/-- The texts of records: those with a line break behind them, and one that the end of the stream ends, if any. -/
def recordTexts (lines : List (String × Terminator)) (last : String) : List String :=
  lines.map Prod.fst ++ if last = "" then [] else [last]

/-- A stream of records begins with a line feed only if it begins with an empty record in front of one. -/
theorem head?_terminatedText {d : Char} {p : LineBreaks} {lines : List (String × Terminator)} {last : String}
    {records : List (List String)} (hr : List.Forall₂ (IsRecord d p) (recordTexts lines last) records)
    (hl : ∀ next ∈ lines.head?, next ≠ ("", .lineFeed)) :
    (terminatedText lines ++ last.toList).head? ≠ some '\n' := by
  cases lines with
  | nil =>
    by_cases h : last = ""
    · rw [h]
      simp [terminatedText]
    · rw [recordTexts, if_neg h] at hr
      cases hr with
      | cons record _ => exact record.head?_ne
  | cons first lines =>
    obtain ⟨text, terminator⟩ := first
    rw [terminatedText_cons, List.append_assoc, List.append_assoc]
    cases hr with
    | cons record _ =>
      by_cases h : text = ""
      · subst h
        cases terminator with
        | lineFeed => exact absurd rfl (hl _ rfl)
        | carriageReturn => simp [Terminator.chars]
        | both => simp [Terminator.chars]
      · have some_ : text.toList ≠ [] := by simpa using h
        rw [List.head?_append_of_ne_nil _ some_]
        exact record.head?_ne

namespace Reader

variable {r : Reader} {text : String} {fields : List String}

/-- A resting reader reads a record and rests behind the break of it. -/
theorem Rests.read_terminated {terminator : Terminator} {behind : List Char} (hd : isDelimiter r.delimiter = true)
    (h : r.Rests (Utf8.encode (text.toList ++ (terminator.chars ++ behind))))
    (hr : IsRecord r.delimiter r.lineBreaks text fields)
    (hb : terminator = .carriageReturn → behind.head? ≠ some '\n') :
    ∃ line, r.Yields r.read ⟨.ok (some fields), line, Utf8.encode behind⟩ := by
  obtain ⟨last, scan⟩ := hr.scan_terminated hd r.line terminator hb
  have yields := h.read
  rw [Scanner.readBytes_encode, scan] at yields
  exact ⟨last + 1, yields⟩

/-- A resting reader reads the last record, which nothing ends but the bytes. -/
theorem Rests.read_last (hd : isDelimiter r.delimiter = true) (h : r.Rests (Utf8.encode text.toList))
    (hr : IsRecord r.delimiter r.lineBreaks text fields) (ht : text ≠ "") :
    ∃ line, r.Yields r.read ⟨.ok (some fields), line, []⟩ := by
  obtain ⟨s, run, completes⟩ := hr.scan (ne_of_isDelimiter hd).1 r.line
  have started : s.started = true := by
    rw [(Scanner.run_of_scan run).started]
    simpa [Scanner.start] using ht
  have ends : s.atEnd = .ok (some fields) := by
    simp [Scanner.atEnd, completes.isQuoteOpen, completes.finish started]
  have yields := h.read
  rw [Scanner.readBytes_encode, run] at yields
  dsimp only at yields
  rw [ends] at yields
  exact ⟨s.line, yields⟩

/-- **Record after record**, each up to its own break. -/
theorem Rests.reads_terminated {lines : List (String × Terminator)} {last : String} {records : List (List String)}
    (hd : isDelimiter r.delimiter = true) (h : r.Rests (Utf8.encode (terminatedText lines ++ last.toList)))
    (hr : List.Forall₂ (IsRecord r.delimiter r.lineBreaks) (recordTexts lines last) records)
    (hc : lines.IsChain StaysApart) (k : Nat) : (r.afterReads k).read.1 = .ok records[k]? := by
  induction lines generalizing r records k with
  | nil =>
    by_cases hl : last = ""
    · subst hl
      cases hr
      exact (h.afterReads_nil k).1
    · rw [recordTexts, if_neg hl] at hr
      obtain ⟨fields, _, record, nothing, rfl⟩ := List.forall₂_cons_left_iff.1 hr
      cases nothing
      obtain ⟨line, yields⟩ := h.read_last hd record hl
      cases k with
      | zero => exact yields.result
      | succ k => exact (yields.rests.afterReads_nil k).1
  | cons first lines ih =>
    obtain ⟨text, terminator⟩ := first
    obtain ⟨fields, rest, record, more, rfl⟩ := List.forall₂_cons_left_iff.1 hr
    obtain ⟨apart, chain⟩ := List.isChain_cons.1 hc
    have behind : terminator = .carriageReturn → (terminatedText lines ++ last.toList).head? ≠ some '\n' := by
      intro ht
      exact head?_terminatedText more fun next hn he => apart next hn ⟨ht, he⟩
    rw [terminatedText_cons, List.append_assoc, List.append_assoc] at h
    obtain ⟨line, yields⟩ := h.read_terminated hd record behind
    cases k with
    | zero => exact yields.result
    | succ k =>
      refine ih (r := r.read.2) ?_ yields.rests ?_ chain k
      · rw [yields.delimiter]
        exact hd
      · rw [yields.delimiter, yields.lineBreaks]
        exact more

end Reader

/-- **Line breaks between records do not matter.** Over a stream of records, each with a line feed, a carriage return or
both behind it, except that the last may have none, a reader gives what each of them is split into, in order, and then
comes to the end. Only an empty record in front of a line feed must not follow a carriage return, since the two would be
one break. -/
theorem reads_of_terminated {source : Source} {d : Delimiter} {p : LineBreaks} {lines : List (String × Terminator)}
    {last : String} {records : List (List String)} (hs : source.IsPlain)
    (hu : source.unread = Utf8.encode (terminatedText lines ++ last.toList))
    (hr : List.Forall₂ (IsRecord d.char p) (recordTexts lines last) records) (hc : lines.IsChain StaysApart) (k : Nat) :
    ((Reader.fresh source d.char p).afterReads k).read.1 = .ok records[k]? := by
  have rests := Reader.rests_fresh hs d.char p
  rw [hu] at rests
  exact rests.reads_terminated d.valid hr hc k

/-- Breaks of each kind, in and behind quoted fields, empty records among them, and a last record without a break. -/
theorem reads_of_terminated_mixed :
    let lines : List (String × Terminator) :=
      [("a", .carriageReturn), ("", .both), ("", .carriageReturn), ("\"\r\n\"\"\",", .carriageReturn),
        ("", .carriageReturn)]
    let source : Source := ⟨[.chunk (Utf8.encode (terminatedText lines ++ "b".toList))], 0⟩
    let records := [["a"], [""], [""], ["\r\n\"", ""], [""], ["b"]]
    (source.IsPlain ∧ List.Forall₂ (IsRecord ',' .escaped) (recordTexts lines "b") records ∧ lines.IsChain StaysApart) ∧
      ∀ k, ((Reader.fresh source ',' .escaped).afterReads k).read.1 = .ok records[k]? := by
  intro lines source records
  have plain : source.IsPlain := by decide
  have unread : source.unread = Utf8.encode (terminatedText lines ++ "b".toList) := List.append_nil _
  have apart : lines.IsChain StaysApart := by decide
  have made : List.Forall₂ (IsRecord ',' .escaped) (recordTexts lines "b") records := by
    refine .cons ?_ (.cons .blank (.cons .blank (.cons ?_ (.cons .blank (.cons ?_ .nil)))))
    · exact .line (by decide) (by rfl) (by decide)
    · exact .line (by decide) (by rfl) (by decide)
    · exact .line (by decide) (by rfl) (by decide)
  exact ⟨⟨plain, made, apart⟩, reads_of_terminated (d := .comma) plain unread made apart⟩

end DelimitedText
