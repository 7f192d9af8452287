import DelimitedText.Proofs.Reading
import DelimitedText.Proofs.RoundTrip
import DelimitedText.Proofs.Writing

/-!
# Reading what was written

The text of a record goes up to the line feed behind it, wherever else it breaks lines: the scanner reads the record
back and leaves what follows (`Scanner.scan_recordText`). So a reader that rests over the text of records reads them one
after the other and then comes to the end (`Reader.Rests.reads_recordsText`), and what a writer wrote is read back
record by record (`read_written`).
-/

namespace DelimitedText

/-- A record as it is read back: none is without a field. -/
def readBack (d : Char) (p : LineBreaks) (fields : List String) : List String :=
  if fields = [] then [""] else rereadFields d p p fields

theorem readBack_raw (d : Char) (fields : List String) :
    readBack d .raw fields = if fields = [] then [""] else fields := by
  rw [readBack, rereadFields_raw]

/-! ## One record -/

/-- The scanner reads a record up to the line feed behind it, whatever the policies of writer and reader. -/
theorem Scanner.scan_recordText {d : Char} (hd : isDelimiter d = true) (w r : LineBreaks) (fields : List String)
    (line : Nat) (text : List Char) : ∃ last, (start d r line).scan (recordText d w fields ++ text) =
      .record (if fields = [] then [""] else rereadFields d w r fields) last text ∧
        last + 1 = line + (recordText d w fields).count '\n' := by
  obtain ⟨hq, hn, -⟩ := ne_of_isDelimiter hd
  obtain ⟨s, run, completes⟩ : ∃ s, (start d r line).scan (lineForm d w (fields.map String.toList)) = .unfinished s ∧
      s.Completes (if fields = [] then [""] else rereadFields d w r fields) := by
    by_cases hf : fields = []
    · subst hf
      exact ⟨_, rfl, (atField_start d r line).completes⟩
    · obtain ⟨s, run, completes⟩ :=
        scan_lineForm (w := w) (fields.map String.toList) (atField_start d r line) (fun _ => hq) (by simpa using hf)
      refine ⟨s, run, ?_⟩
      rw [if_neg hf, rereadFields]
      rw [List.map_map] at completes
      exact completes
  have ends : s.feed '\n' = .record (if fields = [] then [""] else rereadFields d w r fields) := by
    apply completes.feed_break rfl
    rw [(run_of_scan run).delimiter]
    exact hn.symm
  refine ⟨s.line, ?_, ?_⟩
  · rw [recordText, List.append_assoc, List.singleton_append, scan_of_record run ends, behindBreak_lineFeed]
  · rw [(run_of_scan run).line, recordText, List.count_append]
    rfl

namespace Reader

variable {r : Reader}

/-- A resting reader reads the first record and rests in front of the text behind it. -/
theorem Rests.read_recordText {w : LineBreaks} {fields : List String} {text : List Char}
    (hd : isDelimiter r.delimiter = true) (h : r.Rests (Utf8.encode (recordText r.delimiter w fields ++ text))) :
    r.Yields r.read ⟨.ok (some (if fields = [] then [""] else rereadFields r.delimiter w r.lineBreaks fields)),
      r.line + (recordText r.delimiter w fields).count '\n', Utf8.encode text⟩ := by
  obtain ⟨last, scan, line⟩ := Scanner.scan_recordText hd w r.lineBreaks fields r.line text
  have yields := h.read
  rw [Scanner.readBytes_encode, scan] at yields
  dsimp only at yields
  rw [line] at yields
  exact yields

/-! ## Record after record -/

/-- **Record after record.** Over the text of records a resting reader gives each of them, and after them nothing; its
line counts the line feeds of the records that were read. -/
theorem Rests.reads_recordsText {records : List (List String)} (hd : isDelimiter r.delimiter = true)
    (h : r.Rests (Utf8.encode (recordsText r.delimiter r.lineBreaks records))) (k : Nat) :
    (r.afterReads k).read.1 = .ok (records.map (readBack r.delimiter r.lineBreaks))[k]? ∧
      (r.afterReads k).line = r.line + (recordsText r.delimiter r.lineBreaks (records.take k)).count '\n' := by
  induction records generalizing r k with
  | nil =>
    obtain ⟨result, line⟩ := h.afterReads_nil k
    rw [List.take_nil]
    exact ⟨result, line⟩
  | cons fields rest ih =>
    rw [recordsText_cons] at h
    obtain ⟨result, rests, line, delimiter, lineBreaks⟩ := h.read_recordText hd
    cases k with
    | zero => exact ⟨result, rfl⟩
    | succ k =>
      rw [← delimiter, ← lineBreaks] at rests
      rw [← delimiter] at hd
      obtain ⟨result, last⟩ := ih hd rests k
      rw [delimiter, lineBreaks] at result last
      refine ⟨result, ?_⟩
      rw [List.take_succ_cons, recordsText_cons, List.count_append, ← Nat.add_assoc]
      rw [line] at last
      exact last

end Reader

/-! ## Records on one line -/

section OneLine

variable {d : Char}

theorem isUnbroken_quotedForm (c : Char) : IsUnbroken '\n' '\r' (quotedForm .escaped c) := by
  unfold quotedForm
  by_cases hq : c = quote
  · rw [if_pos hq]; decide
  by_cases hr : c = '\r'
  · rw [if_neg hq, if_pos (by simp [hr])]; decide
  by_cases hn : c = '\n'
  · rw [if_neg hq, if_neg (by simp [hr]), if_pos (by simp [hn])]; decide
  rw [if_neg hq, if_neg (by simp [hr]), if_neg (by simp [hn])]
  intro x hx
  rw [List.mem_singleton.1 hx]
  exact ⟨hn, hr⟩

/-- A field that is not quoted holds no line break. -/
theorem isUnbroken_of_needsQuoting {value : List Char} (h : needsQuoting value d = false) :
    IsUnbroken '\n' '\r' value := by
  intro x hx
  have := List.any_eq_false.1 h x hx
  simp only [isLineBreak, Bool.or_eq_true, decide_eq_true_eq, not_or] at this
  exact this.1.2

/-- Escaping leaves no line break in a field. -/
theorem isUnbroken_fieldForm (d : Char) (value : List Char) : IsUnbroken '\n' '\r' (fieldForm d .escaped value) := by
  unfold fieldForm
  cases hn : needsQuoting value d with
  | true =>
    have quotes : IsUnbroken '\n' '\r' [quote] := by decide
    rw [if_pos rfl, enquote]
    have body : IsUnbroken '\n' '\r' (value.flatMap (quotedForm .escaped)) := by
      intro x hx
      obtain ⟨c, -, hx⟩ := List.mem_flatMap.1 hx
      exact isUnbroken_quotedForm c x hx
    exact List.forall_mem_append.2 ⟨List.forall_mem_cons.2 ⟨quotes quote List.mem_cons_self, body⟩, quotes⟩
  | false =>
    rw [if_neg (by decide)]
    exact isUnbroken_of_needsQuoting hn

theorem isUnbroken_lineForm (hd : isDelimiter d = true) :
    ∀ values : List (List Char), IsUnbroken '\n' '\r' (lineForm d .escaped values)
  | [] => fun x hx => absurd hx List.not_mem_nil
  | [value] => isUnbroken_fieldForm d value
  | value :: next :: rest => by
    obtain ⟨-, delimiter⟩ := ne_of_isDelimiter hd
    exact List.forall_mem_append.2
      ⟨isUnbroken_fieldForm d value, List.forall_mem_cons.2 ⟨delimiter, isUnbroken_lineForm hd (next :: rest)⟩⟩

/-- Escaped records have a line feed each. -/
theorem count_recordsText (hd : isDelimiter d = true) (records : List (List String)) :
    (recordsText d .escaped records).count '\n' = records.length := by
  induction records with
  | nil => rfl
  | cons fields rest ih =>
    have content : (lineForm d .escaped (fields.map String.toList)).count '\n' = 0 :=
      List.count_eq_zero.2 fun h => (isUnbroken_lineForm hd _ _ h).1 rfl
    rw [recordsText_cons, List.count_append, ih, recordText, List.count_append, content, List.length_cons,
      List.count_singleton_self]
    omega

end OneLine

/-- **Writing and reading.** Whatever is written to a sink that never fails, a reader with the same options reads it
back record by record, however the bytes are delivered, and then comes to the end. Under `LineBreaks.raw` the records
are the same; under `LineBreaks.escaped` each of them is one physical line. -/
theorem read_written {sink : Sink} {source : Source} {options : Options} {records : List (List String)} {w : Writer}
    (hw : ({ sink, options } : Writer).writeRecords records = w) (hf : sink.NeverFails) (he : sink.received = [])
    (hs : source.IsPlain) (hu : source.unread = w.sink.received) :
    w.records = records.length ∧
    (∀ k, ((Reader.ofOptions source options).afterReads k).read.1 =
      .ok (records.map (readBack options.delimiter.char options.lineBreaks))[k]?) ∧
    (options.lineBreaks = .raw → ∀ k, ((Reader.ofOptions source options).afterReads k).read.1 =
      .ok (records.map fun fields => if fields = [] then [""] else fields)[k]?) ∧
    (options.lineBreaks = .escaped →
      (∀ fields ∈ records, IsUnbroken '\n' '\r' (formatLine fields options.delimiter.char).toList) ∧
      ∀ k, ((Reader.ofOptions source options).afterReads k).line = min k records.length + 1) := by
  have wrote := Writer.writeRecords_of_neverFails (w := { sink, options }) hf records
  rw [hw] at wrote
  have received := wrote.received
  rw [he, List.nil_append] at received
  have rests := Reader.rests_fresh hs options.delimiter.char options.lineBreaks
  rw [hu, received, ← Reader.ofOptions_eq_fresh source options] at rests
  have reads := rests.reads_recordsText options.delimiter.valid
  have counted : w.records = records.length := by
    rw [wrote.records]
    exact Nat.zero_add _
  refine ⟨counted, fun k => (reads k).1, ?_, ?_⟩
  · intro hraw k
    rw [(reads k).1]
    have same : readBack options.delimiter.char options.lineBreaks = fun fields =>
        if fields = [] then [""] else fields := by
      rw [hraw]
      exact funext (readBack_raw _)
    exact congrArg (fun f => Except.ok (records.map f)[k]?) same
  intro hescaped
  constructor
  · intro fields _
    rw [formatLine, String.toList_ofList]
    exact isUnbroken_lineForm options.delimiter.valid _
  · intro k
    rw [(reads k).2]
    show 1 + (recordsText options.delimiter.char options.lineBreaks (records.take k)).count '\n' = _
    rw [hescaped, count_recordsText options.delimiter.valid, List.length_take, Nat.add_comm]

/-- A sink that takes few bytes at a time, and a literal that is lost: it is written like the line break that it names.
-/
theorem read_written_piecewise :
    let sink : Sink := { writes := [.accept 2, .interrupted, .accept 3] }
    let w := ({ sink, options := {} } : Writer).writeRecords [["a\nb", "\\n,"], [], [""]]
    let source : Source := ⟨[.chunk (w.sink.received.take 3), .chunk (w.sink.received.drop 3)], 0⟩
    (sink.NeverFails ∧ sink.received = [] ∧ source.IsPlain ∧ source.unread = w.sink.received) ∧
      ((Reader.ofOptions source {}).afterReads 0).read.1 = .ok (some ["a\nb", "\n,"]) ∧
      ((Reader.ofOptions source {}).afterReads 3).read.1 = .ok none ∧
      ((Reader.ofOptions source {}).afterReads 3).line = 4 := by
  intro sink w source
  have neverFails : sink.NeverFails := by decide
  have plain : source.IsPlain := by decide
  have unread : source.unread = w.sink.received := by decide
  have written : ({ sink, options := {} } : Writer).writeRecords [["a\nb", "\\n,"], [], [""]] = w := rfl
  obtain ⟨-, reads, -, lines⟩ := read_written written neverFails rfl plain unread
  refine ⟨⟨neverFails, rfl, plain, unread⟩, ?_, reads 3, (lines rfl).2 3⟩
  rw [reads 0]
  decide

end DelimitedText
