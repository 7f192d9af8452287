import DelimitedText.Proofs.WriteRead

/-!
# Headers that are read back

A header is written with its line breaks escaped, whatever the policy of its writer, so it is one physical line, and a
reader takes it as its first record whatever is behind it (`Reader.Rests.read_header`). It is recognised if its names
come back. Under `LineBreaks.escaped` a name is lost like a field, for a literal that is quoted; under `LineBreaks.raw`,
where a field is never lost, a name is lost for its line breaks, which come back as literals (`isHeader_read_header`,
`not_isHeader_of_raw_break`).
-/

namespace DelimitedText

/-! ## Names that are kept -/

/-- Encoding keeps a text iff it has no line break. -/
theorem encodeBreaks_eq_self_iff (value : List Char) : encodeBreaks value = value ↔ IsUnbroken '\n' '\r' value := by
  induction value with
  | nil => exact ⟨fun _ x hx => absurd hx List.not_mem_nil, fun _ => rfl⟩
  | cons c value ih =>
    rw [encodeBreaks_cons, IsUnbroken, List.forall_mem_cons]
    by_cases hr : c = '\r'
    · simp [hr]
    by_cases hn : c = '\n'
    · simp [hn]
    rw [if_neg hr, if_neg hn, List.singleton_append, List.cons.injEq, ih]
    exact and_congr (iff_of_true rfl ⟨hn, hr⟩) Iff.rfl

/-- A reader that keeps backslashes finds an escaped field as it was iff it had no line break. -/
theorem reread_escaped_raw_eq_self_iff (d : Char) (value : List Char) :
    reread d .escaped .raw value = value ↔ IsUnbroken '\n' '\r' value := by
  rw [reread]
  cases hq : needsQuoting value d with
  | true => exact encodeBreaks_eq_self_iff value
  | false => exact iff_of_true rfl (isUnbroken_of_needsQuoting hq)

/-- A header is recognised iff it has names, and each of them is read as it was written. -/
theorem Schema.isHeader_reread (schema : Schema) (d : Char) (w r : LineBreaks) :
    schema.isHeader (if schema.names = [] then [""] else rereadFields d w r schema.names) = true ↔
      schema.names ≠ [] ∧ ∀ name ∈ schema.names, reread d w r name.toList = name.toList := by
  rw [isHeader, beq_iff_eq]
  by_cases hn : schema.names = []
  · simp [hn]
  · rw [if_neg hn, rereadFields_eq_self_iff]
    exact (and_iff_right hn).symm

/-! ## The first record -/

/-- The header line ends where its line feed stands. -/
theorem cutLine_header {d : Char} (hd : isDelimiter d = true) (names : List String) (behind : List UInt8) :
    cutLine (Utf8.encode (recordText d .escaped names) ++ behind) =
      (Utf8.encode (recordText d .escaped names), behind) := by
  refine (firstLine_eq_iff (by decide)).2 ⟨rfl, ?_⟩
  refine ⟨Utf8.encode (lineForm d .escaped (names.map String.toList)), [lineFeed], ?_, ?_, .inl (.inl rfl)⟩
  · rw [recordText, Utf8.encode_append, encode_lineFeed]
  · exact isUnbroken_encode (isUnbroken_lineForm hd _)

/-- A resting reader takes the header for one record on one line, whatever bytes are behind it. -/
theorem Reader.Rests.read_header {r : Reader} {names : List String} {behind : List UInt8}
    (hd : isDelimiter r.delimiter = true)
    (h : r.Rests (Utf8.encode (recordText r.delimiter .escaped names) ++ behind)) :
    r.Yields r.read ⟨.ok (some (if names = [] then [""] else rereadFields r.delimiter .escaped r.lineBreaks names)),
      r.line + 1, behind⟩ := by
  have cut := cutLine_header hd names behind
  have some_ : Utf8.encode (recordText r.delimiter .escaped names) ++ behind ≠ [] := by
    simp [recordText, Utf8.encode_append, encode_lineFeed]
  obtain ⟨last, scan, line⟩ := Scanner.scan_recordText hd .escaped r.lineBreaks names r.line []
  have feeds : (recordText r.delimiter .escaped names).count '\n' = 1 := by
    rw [← recordsText_singleton, count_recordsText hd]
    rfl
  rw [feeds] at line
  rw [List.append_nil] at scan
  have yields := h.read
  rw [Scanner.readBytes_line some_ (congrArg Prod.fst cut), scan, cut] at yields
  dsimp only at yields
  rw [line] at yields
  exact yields

/-- What a sink that never fails receives of a header. -/
theorem Writer.received_writeHeader {w : Writer} (h : w.sink.NeverFails) (schema : Schema) :
    (w.writeHeader schema).1 = .ok () ∧ (w.writeHeader schema).2.sink.received =
      w.sink.received ++ Utf8.encode (recordText w.options.delimiter.char .escaped schema.names) := by
  obtain ⟨sink, line, -, received⟩ := writeLine_of_neverFails h (schema.header w.options.delimiter.char)
  rw [schema.toList_header] at received
  rw [writeHeader, line]
  exact ⟨rfl, received⟩

/-- **Recognising a header.** Where a header is the first thing that is written, a reader with the same options reads a
first record, whatever bytes follow and however they are delivered. It is recognised as the header iff there are names
and none is lost: under `LineBreaks.escaped` for a literal in a name that is quoted, under `LineBreaks.raw` for a line
break. -/
theorem isHeader_read_header {sink : Sink} {source : Source} {options : Options} {schema : Schema} {more : List UInt8}
    (hf : sink.NeverFails) (he : sink.received = []) (hs : source.IsPlain)
    (hu : source.unread = (({ sink, options } : Writer).writeHeader schema).2.sink.received ++ more) :
    (({ sink, options } : Writer).writeHeader schema).1 = .ok () ∧
    ∃ fields, (Reader.ofOptions source options).read.1 = .ok (some fields) ∧
      (options.lineBreaks = .escaped → (schema.isHeader fields = true ↔ schema.names ≠ [] ∧
        ∀ name ∈ schema.names, needsQuoting name.toList options.delimiter.char = true → ¬ HasLiteral name.toList)) ∧
      (options.lineBreaks = .raw → (schema.isHeader fields = true ↔ schema.names ≠ [] ∧
        ∀ name ∈ schema.names, IsUnbroken '\n' '\r' name.toList)) := by
  obtain ⟨ok, received⟩ := Writer.received_writeHeader (w := { sink, options }) hf schema
  refine ⟨ok, ?_⟩
  rw [received] at hu
  dsimp only at hu
  rw [he, List.nil_append] at hu
  have rests := Reader.rests_fresh hs options.delimiter.char options.lineBreaks
  rw [hu, ← Reader.ofOptions_eq_fresh source options] at rests
  have recognised := schema.isHeader_reread options.delimiter.char .escaped options.lineBreaks
  refine ⟨_, (rests.read_header options.delimiter.valid).result, ?_, ?_⟩
  · intro hp
    refine recognised.trans (and_congr_right fun _ => forall_congr' fun name => imp_congr_right fun _ => ?_)
    rw [hp]
    exact reread_escaped_eq_self_iff _ _
  · intro hp
    refine recognised.trans (and_congr_right fun _ => forall_congr' fun name => imp_congr_right fun _ => ?_)
    rw [hp]
    exact reread_escaped_raw_eq_self_iff _ _

/-- Under `LineBreaks.raw` a header with a literal, a quote and the delimiter in its names is recognised, also in front
of bytes that are no text. -/
theorem isHeader_read_header_raw :
    let sink : Sink := { writes := [.accept 2, .interrupted, .accept 1] }
    let options : Options := { delimiter := .pipe, lineBreaks := .raw }
    let schema : Schema := ⟨["a|b", "\\n|", "", "\""], by decide⟩
    let source : Source :=
      ⟨[.chunk (({ sink, options } : Writer).writeHeader schema).2.sink.received, .chunk [255, 34]], 0⟩
    (sink.NeverFails ∧ source.IsPlain) ∧
      ∃ fields, (Reader.ofOptions source options).read.1 = .ok (some fields) ∧ schema.isHeader fields = true := by
  intro sink options schema source
  have neverFails : sink.NeverFails := by decide
  have plain : source.IsPlain := by decide
  have unread : source.unread = (({ sink, options } : Writer).writeHeader schema).2.sink.received ++ [255, 34] := by
    decide
  obtain ⟨-, fields, read, -, recognised⟩ := isHeader_read_header neverFails rfl plain unread
  exact ⟨⟨neverFails, plain⟩, fields, read, (recognised rfl).2 (by decide)⟩

/-- Under `LineBreaks.raw` a name with a line break is written as no field would be, and its header is read back as
another record. -/
theorem not_isHeader_of_raw_break :
    let sink : Sink := {}
    let options : Options := { lineBreaks := .raw }
    let schema : Schema := ⟨["a\nb"], by decide⟩
    let source : Source := ⟨[.chunk (({ sink, options } : Writer).writeHeader schema).2.sink.received], 0⟩
    (sink.NeverFails ∧ source.IsPlain ∧ schema.names ≠ [] ∧
      (({ sink, options } : Writer).writeHeader schema).1 = .ok ()) ∧
      (Reader.ofOptions source options).read.1 = .ok (some ["a\\nb"]) ∧ schema.isHeader ["a\\nb"] = false := by
  intro sink options schema source
  have plain : source.IsPlain := by decide
  have unread : source.unread = Utf8.encode (recordText ',' .escaped ["a\nb"]) ++ [] := by decide
  have rests := Reader.rests_fresh plain ',' .raw
  rw [unread] at rests
  have read := (rests.read_header (r := Reader.fresh source ',' .raw) (by decide)).result
  refine ⟨⟨by decide, plain, by decide, by decide⟩, ?_, by decide⟩
  rw [Reader.ofOptions_eq_fresh]
  exact read

end DelimitedText
