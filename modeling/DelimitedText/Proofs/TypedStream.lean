import DelimitedText.Proofs.FlatType
import DelimitedText.Proofs.WriteRead
import DelimitedText.Typed

/-!
# Typed streams

Values of a flat type are written as their fields, record by record (`Writer.received_writeValues`), and a resting
reader reads each of them off its record (`Reader.Rests.readValues`). So what is written is read back, behind a header
or without one, if each value `Survives` (`ofStream_writeTable`). The header is always written with escaped line breaks,
but it is one record whatever the reader makes of it (`Reader.Rests.skipHeader`).
-/

namespace DelimitedText

/-! ## Values that survive -/

/-- A value of a type that is told by its record, under the given conventions. -/
structure Survives (options : Options) (shape : Shape) (value : Value) : Prop where
  typed : RecordOf shape value
  /-- a record without fields is written like one empty field -/
  hasField : value.fields ≠ .ok []
  /-- an optional value with the empty text is written like an absent one -/
  present : ∀ element ∈ value.elements, element.looksAbsent = false
  /-- a literal in a quoted field is read as the line break that it names -/
  literals : options.lineBreaks = .escaped → ∀ fields, value.fields = .ok fields → ∀ field ∈ fields,
    needsQuoting field.toList options.delimiter.char = true → ¬ HasLiteral field.toList

theorem readBack_eq_self {d : Char} {p : LineBreaks} {fields : List String} (hf : fields ≠ [])
    (hl : p = .escaped → ∀ field ∈ fields, needsQuoting field.toList d = true → ¬ HasLiteral field.toList) :
    readBack d p fields = fields := by
  rw [readBack, if_neg hf]
  cases p with
  | raw => exact rereadFields_raw d fields
  | escaped => exact (rereadFields_escaped_eq_self_iff d fields).2 (hl rfl)

/-- The record of a value that survives is read back, and as that value. -/
theorem Survives.exists_fields {options : Options} {shape : Shape} {value : Value} (h : Survives options shape value)
    (hs : shape.isFlat = true) : ∃ fields, value.fields = .ok fields ∧
      shape.readRecord (readBack options.delimiter.char options.lineBreaks fields) = .ok value := by
  obtain ⟨fields, hf, read⟩ := h.typed.readRecord_fields hs h.present
  refine ⟨fields, hf, ?_⟩
  have some_ : fields ≠ [] := by
    rintro rfl
    exact h.hasField hf
  rw [readBack_eq_self some_ fun he => h.literals he fields hf, read]

/-- The records of values that survive. -/
theorem exists_records {options : Options} {shape : Shape} {values : List Value} (hs : shape.isFlat = true)
    (h : ∀ value ∈ values, Survives options shape value) : ∃ records : List (List String),
      List.Forall₂ (fun value fields => value.fields = .ok fields) values records ∧
      List.Forall₂ (fun value fields =>
        shape.readRecord (readBack options.delimiter.char options.lineBreaks fields) = .ok value) values records := by
  induction values with
  | nil => exact ⟨[], .nil, .nil⟩
  | cons value values ih =>
    obtain ⟨first, rest⟩ := List.forall_mem_cons.1 h
    obtain ⟨fields, hf, read⟩ := first.exists_fields hs
    obtain ⟨records, hfs, reads⟩ := ih rest
    exact ⟨fields :: records, .cons hf hfs, .cons read reads⟩

/-! ## Writing -/

namespace Writer

/-- Writes the names of the columns, if the options ask for a header, and then values. -/
def writeTable (w : Writer) (schema : Schema) (values : List Value) : Except Error Unit × Writer :=
  if w.options.hasHeader then
    match w.writeHeader schema with
    | (.ok (), w) => w.writeValues values
    | (.error error, w) => (.error error, w)
  else w.writeValues values

variable {w : Writer}

/-- Values are written as their records. -/
theorem writeValues_of_neverFails {values : List Value} {records : List (List String)} (h : w.sink.NeverFails)
    (hf : List.Forall₂ (fun value fields => value.fields = .ok fields) values records) :
    w.writeValues values = (w.writeRecords records).flush := by
  induction hf generalizing w with
  | nil => rfl
  | @cons value fields values records hv _ ih =>
    obtain ⟨ok, wrote⟩ := writeFields_of_neverFails h fields
    have written : w.writeValue value = (.ok (), (w.writeFields fields).2) := by
      rw [writeValue, hv]
      exact Prod.ext ok rfl
    rw [writeValues, written]
    exact ih wrote.neverFails

/-- Writing uses up no answer to a flush. -/
theorem flushes_writeLine (w : Writer) (line : String) : (w.writeLine line).2.sink.flushes = w.sink.flushes :=
  rfl

theorem flushes_writeRecords (w : Writer) (records : List (List String)) :
    (w.writeRecords records).sink.flushes = w.sink.flushes := by
  induction records generalizing w with
  | nil => rfl
  | cons fields records ih =>
    have line := flushes_writeLine w (formatLine fields w.options.delimiter.char w.options.lineBreaks)
    rw [writeRecords, ih, writeFields]
    split <;> rename_i hw <;> rw [hw] at line <;> exact line

/-- A flush that does not fail changes nothing that was received. -/
theorem flush_of_all_none (h : ∀ failure ∈ w.sink.flushes, failure = none) :
    w.flush.1 = .ok () ∧ w.flush.2.sink.received = w.sink.received := by
  unfold flush Sink.flush
  cases hf : w.sink.flushes with
  | nil => exact ⟨rfl, rfl⟩
  | cons failure rest =>
    rw [hf] at h
    rw [h failure List.mem_cons_self]
    exact ⟨rfl, rfl⟩

/-- What the sink receives of values is the text of their records. -/
theorem received_writeValues {values : List Value} {records : List (List String)} (h : w.sink.NeverFails)
    (hn : ∀ failure ∈ w.sink.flushes, failure = none)
    (hf : List.Forall₂ (fun value fields => value.fields = .ok fields) values records) :
    (w.writeValues values).1 = .ok () ∧ (w.writeValues values).2.sink.received = w.sink.received ++
      Utf8.encode (recordsText w.options.delimiter.char w.options.lineBreaks records) := by
  have wrote := writeRecords_of_neverFails h records
  rw [writeValues_of_neverFails h hf, ← wrote.received]
  exact flush_of_all_none (by rw [flushes_writeRecords]; exact hn)

/-- **Writing a table.** The sink receives the header, if the options ask for one, and the records of the values. -/
theorem writeTable_of_neverFails (schema : Schema) {values : List Value} {records : List (List String)}
    (h : w.sink.NeverFails) (hn : ∀ failure ∈ w.sink.flushes, failure = none)
    (hf : List.Forall₂ (fun value fields => value.fields = .ok fields) values records) :
    (w.writeTable schema values).1 = .ok () ∧ (w.writeTable schema values).2.sink.received = w.sink.received ++
      Utf8.encode ((if w.options.hasHeader then recordText w.options.delimiter.char .escaped schema.names else []) ++
        recordsText w.options.delimiter.char w.options.lineBreaks records) := by
  unfold writeTable
  cases hh : w.options.hasHeader with
  | false => exact received_writeValues h hn hf
  | true =>
    obtain ⟨sink, line, hs, hr⟩ := writeLine_of_neverFails h (schema.header w.options.delimiter.char)
    have flushes := flushes_writeLine w (schema.header w.options.delimiter.char)
    rw [line] at flushes
    have written := received_writeValues (w := { w with sink }) hs (by rw [flushes]; exact hn) hf
    rw [if_pos rfl, if_pos rfl, writeHeader, line, Utf8.encode_append, ← schema.toList_header, ← List.append_assoc,
      ← hr]
    exact written

end Writer

/-! ## Reading -/

namespace Reader

variable {r : Reader} {shape : Shape}

theorem readValues_eq (r : Reader) (shape : Shape) : r.readValues shape =
    match r.readValue shape with
    | (.error error, r) => (.error error, r)
    | (.ok none, r) => (.ok [], r)
    | (.ok (some value), r) => ((r.readValues shape).1.map (value :: ·), (r.readValues shape).2) := by
  rw [readValues]
  split <;> rename_i h <;> rw [h]

/-- **Value after value.** Over the text of records a resting reader reads each record as its value, to the end. -/
theorem Rests.readValues {values : List Value} {records : List (List String)} (hd : isDelimiter r.delimiter = true)
    (h : r.Rests (Utf8.encode (recordsText r.delimiter r.lineBreaks records)))
    (hv : List.Forall₂ (fun value fields => shape.readRecord (readBack r.delimiter r.lineBreaks fields) = .ok value)
      values records) : (r.readValues shape).1 = .ok values := by
  induction records generalizing r values with
  | nil =>
    cases hv
    have rests : r.Rests [] := h
    have ended := rests.read.result
    rw [Scanner.readBytes_nil] at ended
    have read : r.readValue shape = (.ok none, r.read.2) := by
      rw [readValue, show r.read = (.ok none, r.read.2) from Prod.ext ended rfl]
    rw [readValues_eq, read]
  | cons fields records ih =>
    cases hv with
    | @cons value _ values _ first more =>
      rw [recordsText_cons] at h
      obtain ⟨result, rests, -, delimiter, lineBreaks⟩ := h.read_recordText hd
      have read : r.readValue shape = (.ok (some value), r.read.2) := by
        rw [readValue, show r.read = (.ok (some _), r.read.2) from Prod.ext result rfl]
        show ((shape.readRecord (readBack r.delimiter r.lineBreaks fields)).map some, r.read.2) = _
        rw [first]
        rfl
      rw [← delimiter, ← lineBreaks] at rests more
      rw [← delimiter] at hd
      rw [readValues_eq, read]
      show (r.read.2.readValues shape).1.map (value :: ·) = _
      rw [ih hd rests more]
      rfl

/-- A header is one record, whatever its line breaks become, and a reader that passes over it rests behind it. -/
theorem Rests.skipHeader {w : LineBreaks} {names : List String} {text : List Char}
    (hd : isDelimiter r.delimiter = true) (h : r.Rests (Utf8.encode (recordText r.delimiter w names ++ text))) :
    ∃ r' : Reader, r.skipHeader = (.ok (), r') ∧ r'.Rests (Utf8.encode text) ∧ r'.delimiter = r.delimiter ∧
      r'.lineBreaks = r.lineBreaks := by
  obtain ⟨result, rests, -, delimiter, lineBreaks⟩ := h.read_recordText hd
  rw [Reader.skipHeader, show r.read = (.ok (some _), r.read.2) from Prod.ext result rfl]
  exact ⟨_, rfl, ⟨rests.plain, rests.unread, rests.pending, rests.exhausted⟩, delimiter, lineBreaks⟩

end Reader

/-- **Typed streams.** Values of a flat type, each of which survives, are written to a sink that never fails, behind a
header if the options ask for one and whatever its names are. They are read back, however the bytes are delivered, as
the same values. -/
theorem ofStream_writeTable {sink : Sink} {source : Source} {options : Options} {shape : Shape} {values : List Value}
    (schema : Schema) (hshape : shape.isFlat = true) (hvalues : ∀ value ∈ values, Survives options shape value)
    (hf : sink.NeverFails) (hn : ∀ failure ∈ sink.flushes, failure = none) (he : sink.received = [])
    (hs : source.IsPlain)
    (hu : source.unread = (({ sink, options } : Writer).writeTable schema values).2.sink.received) :
    (({ sink, options } : Writer).writeTable schema values).1 = .ok () ∧
      (Reader.ofStream source shape options).1 = .ok values := by
  obtain ⟨records, fields, read⟩ := exists_records hshape hvalues
  obtain ⟨ok, received⟩ := Writer.writeTable_of_neverFails (w := { sink, options }) schema hf hn fields
  refine ⟨ok, ?_⟩
  have rests := Reader.rests_fresh hs options.delimiter.char options.lineBreaks
  rw [hu, received, ← Reader.ofOptions_eq_fresh source options] at rests
  dsimp only at rests
  rw [he, List.nil_append] at rests
  have delimiter := options.delimiter.valid
  unfold Reader.ofStream
  cases hh : options.hasHeader with
  | false =>
    rw [hh, if_neg (by decide), List.nil_append] at rests
    exact rests.readValues delimiter read
  | true =>
    rw [hh, if_pos rfl] at rests
    obtain ⟨r, skipped, rests, hd, hl⟩ := rests.skipHeader delimiter
    rw [if_pos rfl, skipped]
    have hd : r.delimiter = options.delimiter.char := hd
    have hl : r.lineBreaks = options.lineBreaks := hl
    rw [← hd, ← hl] at rests read
    rw [← hd] at delimiter
    exact rests.readValues delimiter read

/-- Fields with a digit for their delimiter, behind a header whose names hold a line break and a literal. The optional
text keeps its literal, for it is not quoted. -/
theorem ofStream_writeTable_digit :
    let shape : Shape :=
      .struct "Row" [("id", .int .i16), ("note", .option .text), ("mark", .newtypeStruct "Mark" .char)]
    let row (id : Int) (note : Value) (mark : Char) : Value :=
      .struct "Row" [("id", .int .i16 id), ("note", note), ("mark", .newtypeStruct "Mark" (.char mark))]
    let values := [row (-110) .absent '\n', row 7 (.present (.text "\\n")) '1']
    let options : Options := { delimiter := ⟨'1', by decide⟩, hasHeader := true }
    let schema : Schema := ⟨["id", "no\nte", "\\n1"], by decide⟩
    let sink : Sink := { writes := [.accept 2, .interrupted] }
    let source : Source := ⟨[.chunk (({ sink, options } : Writer).writeTable schema values).2.sink.received], 0⟩
    (shape.isFlat = true ∧ (∀ value ∈ values, Survives options shape value) ∧ sink.NeverFails ∧ source.IsPlain) ∧
      (Reader.ofStream source shape options).1 = .ok values := by
  intro shape row values options schema sink source
  have flat : shape.isFlat = true := by decide
  have neverFails : sink.NeverFails := by decide
  have typed : ∀ {id : Int} {note : Value} (mark : Char), IntType.i16.contains id = true →
      ElementOf (.option .text) note → RecordOf shape (row id note mark) := fun mark hi hn =>
    .struct rfl (.cons (.int hi) (.cons hn (.cons (.newtypeStruct (.char mark)) .nil)))
  have survives : ∀ value ∈ values, Survives options shape value := by
    intro value hm
    rcases List.mem_pair.1 hm with rfl | rfl
    · refine ⟨typed _ (by decide) (.absent _), (fun h => by cases h), by decide, fun _ fields hf => ?_⟩
      cases hf
      decide
    · refine ⟨typed _ (by decide) (.present (.text _)), (fun h => by cases h), by decide, fun _ fields hf => ?_⟩
      cases hf
      decide
  have plain : source.IsPlain := by decide
  exact ⟨⟨flat, survives, neverFails, plain⟩,
    (ofStream_writeTable schema flat survives neverFails (by decide) rfl plain (by decide)).2⟩

end DelimitedText
