import DelimitedText.Proofs.Utf8
import DelimitedText.Stream.Writer

/-!
# What a sink receives

A sink that `NeverFails` may take its bytes piece by piece, but it takes all of them (`Sink.NeverFails.write`). Records
that are written to it arrive as the text of their lines, each with a line feed behind it, and every one is counted
(`Writer.writeRecords_of_neverFails`).
-/

namespace DelimitedText

/-! ## Sinks -/

namespace Sink

/-- Whether an answer accepts some bytes, or has the call repeated. -/
def Reply.isWilling : Reply → Bool
  | .accept n => n != 0
  | .interrupted => true
  | .failure _ => false

/-- Whether no call to a sink fails. -/
def NeverFails (s : Sink) : Prop :=
  ∀ reply ∈ s.writes, reply.isWilling = true

instance (s : Sink) : Decidable s.NeverFails :=
  List.decidableBAll (fun reply : Reply => reply.isWilling = true) s.writes

/-- A message with which one of the answers refuses bytes for good. -/
inductive Refuses (replies : List Reply) : String → Prop where
  | failure {message : String} (h : .failure message ∈ replies) : Refuses replies message
  | acceptsNone (h : .accept 0 ∈ replies) : Refuses replies refusesAll

theorem Refuses.mono {replies more : List Reply} {message : String} (h : Refuses replies message)
    (hs : replies ⊆ more) : Refuses more message := by
  cases h with
  | failure h => exact .failure (hs h)
  | acceptsNone h => exact .acceptsNone (hs h)

/-- Willing answers refuse nothing. -/
theorem Refuses.exists_not_isWilling {replies : List Reply} {message : String} (h : Refuses replies message) :
    ∃ reply ∈ replies, reply.isWilling = false := by
  cases h with
  | failure h => exact ⟨_, h, rfl⟩
  | acceptsNone h => exact ⟨_, h, rfl⟩

/-- How bytes are written: all of them, or not all of them because one of the answers refuses more. -/
inductive Written.Covers (replies : List Reply) (bytes : List UInt8) (written : Written) : Prop where
  | all (failure : written.failure = none) (all : written.bytes = bytes)
  | part {message : String} (failure : written.failure = some message) (refuses : Refuses replies message)
      (part : written.bytes <+: bytes) (proper : written.bytes ≠ bytes)

/-- Whatever a sink answers, it takes the bytes from the first on, and all of them unless it refuses some. -/
theorem covers_writeAll (bytes : List UInt8) (replies : List Reply) :
    (writeAll bytes replies).Covers replies bytes ∧ (writeAll bytes replies).rest <:+ replies := by
  have none_ : ∀ {bytes : List UInt8}, bytes.isEmpty ≠ true → ([] : List UInt8) ≠ bytes := by
    rintro bytes hb rfl
    exact hb rfl
  fun_induction writeAll bytes replies with
  | case1 bytes => exact ⟨.all rfl rfl, List.suffix_rfl⟩
  | case2 bytes reply rest hb => exact ⟨.all rfl (List.isEmpty_iff.1 hb).symm, List.suffix_rfl⟩
  | case3 bytes rest hb ih =>
    obtain ⟨covers, suffix⟩ := ih
    refine ⟨?_, suffix.trans (List.suffix_cons _ _)⟩
    cases covers with
    | all failure all => exact .all failure all
    | part failure refuses part proper =>
      exact .part failure (refuses.mono (List.subset_cons_self _ _)) part proper
  | case4 bytes rest hb message =>
    exact ⟨.part rfl (.failure List.mem_cons_self) List.nil_prefix (none_ hb), List.suffix_cons _ _⟩
  | case5 bytes rest hb =>
    exact ⟨.part rfl (.acceptsNone List.mem_cons_self) List.nil_prefix (none_ hb), List.suffix_cons _ _⟩
  | case6 bytes rest hb n written ih =>
    obtain ⟨covers, suffix⟩ := ih
    have whole : bytes.take (n + 1) ++ bytes.drop (n + 1) = bytes := List.take_append_drop _ _
    refine ⟨?_, suffix.trans (List.suffix_cons _ _)⟩
    cases covers with
    | all failure all =>
      refine .all failure ?_
      show bytes.take (n + 1) ++ written.bytes = bytes
      rw [show written.bytes = _ from all, whole]
    | part failure refuses part proper =>
      obtain ⟨more, hm⟩ := part
      refine .part failure (refuses.mono (List.subset_cons_self _ _)) ⟨more, ?_⟩ ?_
      · show bytes.take (n + 1) ++ written.bytes ++ more = bytes
        rw [List.append_assoc, hm, whole]
      · intro he
        exact proper (List.append_cancel_left (Eq.trans he whole.symm))

theorem NeverFails.write {s : Sink} (h : s.NeverFails) (bytes : List UInt8) :
    ∃ s', s.write bytes = (none, s') ∧ s'.NeverFails ∧ s'.received = s.received ++ bytes := by
  obtain ⟨covers, suffix⟩ := covers_writeAll bytes s.writes
  cases covers with
  | all failure all =>
    refine ⟨_, Prod.ext failure rfl, fun reply hr => h reply (suffix.subset hr), ?_⟩
    show s.received ++ (writeAll bytes s.writes).bytes = s.received ++ bytes
    rw [all]
  | part failure refuses part proper =>
    obtain ⟨reply, mem, unwilling⟩ := refuses.exists_not_isWilling
    rw [h reply mem] at unwilling
    cases unwilling

end Sink

/-! ## Writers -/

/-- A record as it is written, with the line feed behind it. -/
def recordText (d : Char) (p : LineBreaks) (fields : List String) : List Char :=
  lineForm d p (fields.map String.toList) ++ ['\n']

/-- Records as they are written. -/
def recordsText (d : Char) (p : LineBreaks) (records : List (List String)) : List Char :=
  records.flatMap (recordText d p)

theorem recordsText_singleton (d : Char) (p : LineBreaks) (fields : List String) :
    recordsText d p [fields] = recordText d p fields :=
  List.append_nil _

theorem recordsText_cons (d : Char) (p : LineBreaks) (fields : List String) (rest : List (List String)) :
    recordsText d p (fields :: rest) = recordText d p fields ++ recordsText d p rest :=
  rfl

/-- A header is a record with its line breaks escaped. -/
theorem Schema.toList_header (schema : Schema) (d : Char) :
    (schema.header d).toList ++ ['\n'] = recordText d .escaped schema.names := by
  rw [header, formatLine, String.toList_ofList, recordText]

namespace Writer

/-- The writer once it was given `records` one after the other, whatever came of it. -/
def writeRecords (w : Writer) : List (List String) → Writer
  | [] => w
  | fields :: rest => (w.writeFields fields).2.writeRecords rest

/-- What a writer did with records: the sink has received their text, and they are counted. -/
structure Wrote (w w' : Writer) (records : List (List String)) : Prop where
  neverFails : w'.sink.NeverFails
  received : w'.sink.received =
    w.sink.received ++ Utf8.encode (recordsText w.options.delimiter.char w.options.lineBreaks records)
  options : w'.options = w.options
  records : w'.records = w.records + records.length

/-- One line. -/
theorem writeLine_of_neverFails {w : Writer} (h : w.sink.NeverFails) (line : String) :
    ∃ sink, w.writeLine line = (.ok (), { w with sink }) ∧ sink.NeverFails ∧
      sink.received = w.sink.received ++ Utf8.encode (line.toList ++ ['\n']) := by
  obtain ⟨sink, hw, hs, hr⟩ := h.write (Utf8.encode (line.toList ++ ['\n']))
  refine ⟨sink, ?_, hs, hr⟩
  unfold writeLine
  rw [hw]
  rfl

/-- One record. -/
theorem writeFields_of_neverFails {w : Writer} (h : w.sink.NeverFails) (fields : List String) :
    (w.writeFields fields).1 = .ok () ∧ Wrote w (w.writeFields fields).2 [fields] := by
  obtain ⟨sink, line, hs, hr⟩ :=
    writeLine_of_neverFails h (formatLine fields w.options.delimiter.char w.options.lineBreaks)
  unfold writeFields
  rw [line]
  refine ⟨rfl, hs, ?_, rfl, rfl⟩
  rw [recordsText_singleton, recordText]
  rw [formatLine, String.toList_ofList] at hr
  exact hr

/-- **Writing.** A sink that never fails receives the text of all records, and all are counted. -/
theorem writeRecords_of_neverFails {w : Writer} (h : w.sink.NeverFails) (records : List (List String)) :
    Wrote w (w.writeRecords records) records := by
  induction records generalizing w with
  | nil => exact ⟨h, (List.append_nil _).symm, rfl, rfl⟩
  | cons fields rest ih =>
    obtain ⟨-, first⟩ := writeFields_of_neverFails h fields
    have more := ih first.neverFails
    refine ⟨more.neverFails, ?_, more.options.trans first.options, ?_⟩
    · rw [writeRecords, more.received, first.received, first.options, List.append_assoc, ← Utf8.encode_append,
        recordsText_singleton, recordsText_cons]
    · rw [writeRecords, more.records, first.records, List.length_singleton, List.length_cons]
      omega

end Writer

end DelimitedText
