import DelimitedText.Schema
import DelimitedText.Stream.Sink
import DelimitedText.Text.Utf8
import DelimitedText.Value.Fields

/-!
# Writing records to a sink

A `Writer` writes one line for each record, and a line feed behind it. It counts the records that were written in full;
a header is not one of them.
-/

namespace DelimitedText

/-- A destination of records. -/
structure Writer where
  sink : Sink
  options : Options
  /-- the number of records written in full -/
  records : Nat := 0
  deriving DecidableEq

namespace Writer

/-- The failure of a sink as a result. -/
def ofFailure : Option String → Except Error Unit
  | some message => .error (.io message)
  | none => .ok ()

/-- Writes a line and the line feed behind it. -/
def writeLine (w : Writer) (line : String) : Except Error Unit × Writer :=
  let (failure, sink) := w.sink.write (Utf8.encode (line.toList ++ ['\n']))
  (ofFailure failure, { w with sink })

/-- Writes the names of the columns. -/
def writeHeader (w : Writer) (schema : Schema) : Except Error Unit × Writer :=
  w.writeLine (schema.header w.options.delimiter.char)

/-- Writes a record. -/
def writeFields (w : Writer) (fields : List String) : Except Error Unit × Writer :=
  match w.writeLine (formatLine fields w.options.delimiter.char w.options.lineBreaks) with
  | (.ok (), w) => (.ok (), { w with records := w.records + 1 })
  | (.error error, w) => (.error error, w)

/-- Writes a value as a record. -/
def writeValue (w : Writer) (value : Value) : Except Error Unit × Writer :=
  match value.fields with
  | .ok fields => w.writeFields fields
  | .error error => (.error error, w)

/-- Asks the sink to pass on what it has received. -/
def flush (w : Writer) : Except Error Unit × Writer :=
  let (failure, sink) := w.sink.flush
  (ofFailure failure, { w with sink })

/-- Flushes, and gives the sink back. -/
def finish (w : Writer) : Except Error Sink × Writer :=
  let (result, w) := w.flush
  (result.map fun _ => w.sink, w)

/-- Writes values as records until one fails, and flushes after the last. -/
def writeValues (w : Writer) : List Value → Except Error Unit × Writer
  | [] => w.flush
  | value :: rest =>
    match w.writeValue value with
    | (.ok (), w) => w.writeValues rest
    | (.error error, w) => (.error error, w)

end Writer

end DelimitedText
