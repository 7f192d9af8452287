import DelimitedText.Line.Split
import DelimitedText.Shape.Read
import DelimitedText.Stream.Reader
import DelimitedText.Stream.Writer

/-!
# Typed records as lines and streams

A value as one line and back, and all records of a stream as values. Reading a stream stops at its first error.
-/

namespace DelimitedText

/-- The line of a value. -/
def Value.toLine (value : Value) (options : Options := {}) : Except Error String :=
  value.fields.map fun fields => formatLine fields options.delimiter.char options.lineBreaks

/-- The value of a line. -/
def Shape.ofLine (shape : Shape) (line : String) (options : Options := {}) : Except Error Value := do
  shape.readRecord (← splitLine line options.delimiter.char options.lineBreaks)

namespace Reader

/-- The next record as a value, or `none` at the end of the input. -/
def readValue (r : Reader) (shape : Shape) : Except Error (Option Value) × Reader :=
  match r.read with
  | (.error error, r) => (.error error, r)
  | (.ok none, r) => (.ok none, r)
  | (.ok (some fields), r) => ((shape.readRecord fields).map some, r)

/-- A value that is returned used up input. -/
theorem remaining_readValue {r r' : Reader} {shape : Shape} {value : Value}
    (h : r.readValue shape = (.ok (some value), r')) : r'.remaining < r.remaining := by
  unfold readValue at h
  split at h
  · simp at h
  · simp at h
  · rename_i hr
    simp only [Prod.mk.injEq] at h
    exact h.2 ▸ remaining_read hr

/-- The values of all records that are left. -/
def readValues (r : Reader) (shape : Shape) : Except Error (List Value) × Reader :=
  match _ : r.readValue shape with
  | (.error error, r) => (.error error, r)
  | (.ok none, r) => (.ok [], r)
  | (.ok (some value), r) =>
    let (values, r) := r.readValues shape
    (values.map (value :: ·), r)
  termination_by r.remaining
  decreasing_by exact remaining_readValue ‹_›

/-- Passes over a record and reports it as a header. -/
def skipHeader (r : Reader) : Except Error Unit × Reader :=
  match r.read with
  | (.error error, r) => (.error error, r)
  | (.ok none, r) => (.ok (), r)
  | (.ok (some fields), r) => (.ok (), { r with journal := r.journal ++ [.skippedHeader fields.length] })

/-- The values of all records of a stream, behind its header if it has one. -/
def ofStream (source : Source) (shape : Shape) (options : Options) : Except Error (List Value) × Reader :=
  let r := ofOptions source options
  if options.hasHeader then
    match r.skipHeader with
    | (.error error, r) => (.error error, r)
    | (.ok (), r) => r.readValues shape
  else r.readValues shape

end Reader

/-- Writes the records of values to a sink. -/
def Writer.ofValues (sink : Sink) (values : List Value) (options : Options) : Except Error Unit × Writer :=
  ({ sink, options } : Writer).writeValues values

end DelimitedText
