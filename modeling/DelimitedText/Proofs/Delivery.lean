import DelimitedText.Proofs.Writing
import Mathlib.Data.List.Forall2

/-!
# Writing to any sink

A sink may take the bytes of a line piece by piece, be interrupted, take none or fail, and a writer is asked for the
next call all the same. Each call leaves its piece behind what the sink has received: the line with its line feed if the
call succeeds, and not all of it if the sink refuses the rest (`Delivers`, `Writer.delivers_call`). A record that was
written adds the line that its fields are formatted as (`Writer.received_writeFields_of_ok`). No piece holds anything of
an earlier line, and the records are counted that were written in full (`Writer.delivers_afterCalls`).
-/

namespace DelimitedText

namespace Writer

/-! ## Calls -/

/-- A request to a writer. -/
inductive Call where
  | header (schema : Schema)
  /-- a record of the given fields -/
  | record (fields : List String)
  /-- the record of a value -/
  | typed (value : Value)
  | flush

/-- The line that a call has to write: none for a flush, and none for a value that has no fields. -/
def Call.line? (options : Options) : Call → Option String
  | .header schema => some (schema.header options.delimiter.char)
  | .record fields => some (formatLine fields options.delimiter.char options.lineBreaks)
  | .typed value =>
    value.fields.toOption.map fun fields => formatLine fields options.delimiter.char options.lineBreaks
  | .flush => none

/-- Whether a call writes a record. -/
def Call.isRecord : Call → Bool
  | .record _ | .typed _ => true
  | .header _ | .flush => false

/-- Answers a request. -/
def call (w : Writer) : Call → Except Error Unit × Writer
  | .header schema => w.writeHeader schema
  | .record fields => w.writeFields fields
  | .typed value => w.writeValue value
  | .flush => w.flush

/-- The writer once it has answered requests, one after the other. -/
def afterCalls (w : Writer) : List Call → Writer
  | [] => w
  | c :: calls => (w.call c).2.afterCalls calls

/-- Requests with their answers. -/
def log (w : Writer) : List Call → List (Call × Except Error Unit)
  | [] => []
  | c :: calls => (c, (w.call c).1) :: (w.call c).2.log calls

/-- Whether a call wrote a record in full. -/
def isWritten : Call × Except Error Unit → Bool
  | (c, result) => c.isRecord && result.isOk

theorem map_fst_log (w : Writer) (calls : List Call) : (w.log calls).map Prod.fst = calls := by
  induction calls generalizing w with
  | nil => rfl
  | cons c calls ih => rw [log, List.map_cons, ih]

/-! ## What a call delivers -/

/-- A line as it goes to the sink. -/
def lineBytes (line : String) : List UInt8 :=
  Utf8.encode (line.toList ++ ['\n'])

/-- The piece that the sink of `w`, or of a later state of `w`, receives of a call that is answered so. -/
inductive Delivers (w : Writer) : Call × Except Error Unit → List UInt8 → Prop where
  /-- a line and its line feed -/
  | line {c : Call} {line : String} (h : c.line? w.options = some line) : Delivers w (c, .ok ()) (lineBytes line)
  /-- not all of that, for the sink refused the rest -/
  | part {c : Call} {line message : String} {piece : List UInt8} (h : c.line? w.options = some line)
      (refuses : Sink.Refuses w.sink.writes message) (part : piece <+: lineBytes line)
      (proper : piece ≠ lineBytes line) : Delivers w (c, .error (.io message)) piece
  /-- nothing of a value that has no fields -/
  | shapeless {value : Value} {error : Error} (h : value.fields = .error error) :
      Delivers w (.typed value, .error error) []
  /-- nothing of a flush -/
  | flushed : Delivers w (.flush, .ok ()) []
  | unflushed {message : String} (h : some message ∈ w.sink.flushes) : Delivers w (.flush, .error (.io message)) []

/-- A later state of a writer, whose sink has received one more piece and has given some of its answers. -/
structure Gained (w w' : Writer) (piece : List UInt8) : Prop where
  received : w'.sink.received = w.sink.received ++ piece
  options : w'.options = w.options
  writes : w'.sink.writes ⊆ w.sink.writes
  flushes : w'.sink.flushes ⊆ w.sink.flushes

variable {w w' : Writer} {c : Call} {piece : List UInt8}

/-- What a later state delivers, the state before it can deliver. -/
theorem Delivers.before {x : Call × Except Error Unit} {more : List UInt8} (h : Delivers w' x more)
    (gained : Gained w w' piece) : Delivers w x more := by
  cases h with
  | line h =>
    rw [gained.options] at h
    exact .line h
  | part h refuses part proper =>
    rw [gained.options] at h
    exact .part h (refuses.mono gained.writes) part proper
  | shapeless h => exact .shapeless h
  | flushed => exact .flushed
  | unflushed h => exact .unflushed (gained.flushes h)

/-! ### One call -/

/-- A call that has a line delivers that line, or the part that the sink does not refuse. -/
theorem delivers_writeLine {line : String} (h : c.line? w.options = some line) :
    ∃ piece, Delivers w (c, (w.writeLine line).1) piece ∧ Gained w (w.writeLine line).2 piece ∧
      (w.writeLine line).2.records = w.records := by
  obtain ⟨covers, suffix⟩ := Sink.covers_writeAll (lineBytes line) w.sink.writes
  have result : (w.writeLine line).1 = ofFailure (Sink.writeAll (lineBytes line) w.sink.writes).failure := rfl
  refine ⟨(Sink.writeAll (lineBytes line) w.sink.writes).bytes, ?_, ⟨rfl, rfl, suffix.subset, List.Subset.refl _⟩, rfl⟩
  rw [result]
  cases covers with
  | all failure all =>
    rw [failure, all]
    exact .line h
  | part failure refuses part proper =>
    rw [failure]
    exact .part h refuses part proper

/-- A record is counted if its line was delivered. -/
theorem delivers_writeFields {fields : List String}
    (h : c.line? w.options = some (formatLine fields w.options.delimiter.char w.options.lineBreaks))
    (hr : c.isRecord = true) : ∃ piece, Delivers w (c, (w.writeFields fields).1) piece ∧
      Gained w (w.writeFields fields).2 piece ∧
      (w.writeFields fields).2.records = w.records + [(c, (w.writeFields fields).1)].countP isWritten := by
  obtain ⟨piece, delivers, gained, records⟩ := delivers_writeLine h
  refine ⟨piece, ?_⟩
  unfold writeFields
  split <;> rename_i hw <;> rw [hw] at delivers gained records
  · refine ⟨delivers, ⟨gained.received, gained.options, gained.writes, gained.flushes⟩, ?_⟩
    have counted : isWritten (c, .ok ()) = true := by rw [isWritten, hr]; rfl
    rw [List.countP_singleton, if_pos counted]
    exact congrArg (· + 1) records
  · refine ⟨delivers, gained, ?_⟩
    have uncounted : ∀ error, isWritten (c, .error error) ≠ true := by
      intro error
      rw [isWritten, hr]
      exact Bool.false_ne_true
    rw [List.countP_singleton, if_neg (uncounted _)]
    exact records

/-- **One call** delivers its piece, and is counted if that is a whole record. -/
theorem delivers_call (w : Writer) (c : Call) : ∃ piece, Delivers w (c, (w.call c).1) piece ∧
    Gained w (w.call c).2 piece ∧ (w.call c).2.records = w.records + [(c, (w.call c).1)].countP isWritten := by
  cases c with
  | header schema => exact delivers_writeLine (c := .header schema) rfl
  | record fields => exact delivers_writeFields (c := .record fields) rfl rfl
  | typed value =>
    rw [call, writeValue]
    cases hf : value.fields with
    | ok fields =>
      refine delivers_writeFields (c := .typed value) ?_ rfl
      rw [Call.line?, hf]
      rfl
    | error error =>
      exact ⟨[], .shapeless hf, ⟨(List.append_nil _).symm, rfl, List.Subset.refl _, List.Subset.refl _⟩, rfl⟩
  | flush =>
    rw [call, flush, Sink.flush]
    cases hf : w.sink.flushes with
    | nil =>
      refine ⟨[], .flushed, ⟨(List.append_nil _).symm, rfl, List.Subset.refl _, ?_⟩, rfl⟩
      rw [hf]
      exact List.Subset.refl _
    | cons failure rest =>
      refine ⟨[], ?_, ⟨(List.append_nil _).symm, rfl, List.Subset.refl _, ?_⟩, ?_⟩
      · cases failure with
        | none => exact .flushed
        | some message => exact .unflushed (by rw [hf]; exact List.mem_cons_self)
      · rw [hf]
        exact List.subset_cons_self _ _
      · cases failure <;> rfl

/-- **A call that succeeds** leaves its formatted line, with a line feed, behind what the sink had received. -/
theorem received_call_of_ok {line : String} (hl : c.line? w.options = some line) (h : (w.call c).1 = .ok ()) :
    (w.call c).2.sink.received = w.sink.received ++ lineBytes line := by
  obtain ⟨piece, delivers, gained, -⟩ := delivers_call w c
  rw [h] at delivers
  rw [gained.received]
  cases delivers with
  | line h => rw [Option.some.inj (h.symm.trans hl)]
  | flushed => cases hl

/-- What a record that was written adds is the line that its fields are formatted as, whatever pieces the sink took. -/
theorem received_writeFields_of_ok {fields : List String} (h : (w.writeFields fields).1 = .ok ()) :
    (w.writeFields fields).2.sink.received = w.sink.received ++
      Utf8.encode ((formatLine fields w.options.delimiter.char w.options.lineBreaks).toList ++ ['\n']) :=
  received_call_of_ok (c := .record fields) rfl h

/-- A value that was written has fields, and adds the line that these are formatted as. -/
theorem received_writeValue_of_ok {value : Value} (h : (w.writeValue value).1 = .ok ()) :
    ∃ fields, value.fields = .ok fields ∧ (w.writeValue value).2.sink.received = w.sink.received ++
      Utf8.encode ((formatLine fields w.options.delimiter.char w.options.lineBreaks).toList ++ ['\n']) := by
  cases hf : value.fields with
  | error error =>
    rw [writeValue, hf] at h
    cases h
  | ok fields =>
    refine ⟨fields, rfl, received_call_of_ok (c := .typed value) ?_ h⟩
    rw [Call.line?, hf]
    rfl

/-! ### Any number of calls -/

/-- **Any calls, any sink.** The sink receives the pieces of the calls in their order and nothing else: a whole line of
each call that succeeded, and less than its line of each that failed. The records that were written in full are counted.
-/
theorem delivers_afterCalls (w : Writer) (calls : List Call) : (w.log calls).map Prod.fst = calls ∧
    (∃ pieces, List.Forall₂ (Delivers w) (w.log calls) pieces ∧
      (w.afterCalls calls).sink.received = w.sink.received ++ pieces.flatten) ∧
    (w.afterCalls calls).records = w.records + (w.log calls).countP isWritten := by
  refine ⟨w.map_fst_log calls, ?_⟩
  induction calls generalizing w with
  | nil => exact ⟨⟨[], .nil, (List.append_nil _).symm⟩, rfl⟩
  | cons c calls ih =>
    obtain ⟨piece, first, gained, counted⟩ := delivers_call w c
    obtain ⟨⟨pieces, rest, received⟩, records⟩ := ih (w.call c).2
    refine ⟨⟨piece :: pieces, .cons first (rest.imp fun x more h => h.before gained), ?_⟩, ?_⟩
    · rw [afterCalls, received, gained.received, List.flatten_cons, List.append_assoc]
    · rw [afterCalls, records, counted, log, Nat.add_assoc, ← List.countP_append]
      rfl

/-- A record that is cut short is not counted, and the next one begins behind the part that arrived. -/
theorem delivers_afterCalls_cut :
    let w : Writer := { sink := { writes := [.accept 2, .interrupted, .failure "full"] }, options := {} }
    let calls : List Call := [.record ["abc"], .typed (.seq [.tuple []]), .record ["d"]]
    (w.log calls).map Prod.snd =
        [.error (.io "full"), .error (.unsupportedShape "nested tuples"), .ok ()] ∧
      List.Forall₂ (Delivers w) (w.log calls) [[97, 98], [], [100, 10]] ∧
      (w.afterCalls calls).sink.received = [97, 98, 100, 10] ∧ (w.afterCalls calls).records = 1 := by
  intro w calls
  obtain ⟨-, ⟨pieces, delivers, received⟩, records⟩ := delivers_afterCalls w calls
  have log : w.log calls = [(.record ["abc"], .error (.io "full")),
      (.typed (.seq [.tuple []]), .error (.unsupportedShape "nested tuples")), (.record ["d"], .ok ())] := by
    simp only [w, calls, log]
    rfl
  have arrived : (w.afterCalls calls).sink.received = [97, 98, 100, 10] := by decide
  rw [log] at delivers records ⊢
  rw [arrived] at received
  cases delivers with | @cons _ piece₁ _ _ first rest
  cases rest with | @cons _ piece₂ _ _ second rest
  cases rest with | @cons _ piece₃ _ _ third rest
  cases rest
  obtain rfl : piece₂ = [] := by cases second; rfl
  obtain rfl : piece₃ = [100, 10] := by
    have formatted : (Call.record ["d"]).line? {} = some "d" := by decide
    cases third with
    | line h =>
      cases h.symm.trans formatted
      rfl
  obtain rfl : [97, 98] = piece₁ := List.append_cancel_right received
  exact ⟨rfl, .cons first (.cons second (.cons third .nil)), arrived, records⟩

end Writer

end DelimitedText
