import DelimitedText.Timestamp
import DelimitedText.Typed

/-!
# Test samples

A `Sample` is one measurement of a load test, laid out in the 17 columns of `Schema.samples`. Its line is written with
escaped line breaks.
-/

namespace DelimitedText

/-- One measurement. Counts of time are in milliseconds. -/
structure Sample where
  /-- the start, counted from the beginning of 1970 -/
  timeStamp : Int64 := 0
  elapsed : UInt64 := 0
  label : String := ""
  responseCode : String := ""
  responseMessage : String := ""
  threadName : String := ""
  dataType : String := ""
  success : Bool := false
  failureMessage : String := ""
  bytes : UInt64 := 0
  sentBytes : UInt64 := 0
  groupThreads : UInt32 := 0
  allThreads : UInt32 := 0
  url : String := ""
  latency : UInt64 := 0
  idleTime : UInt64 := 0
  connect : UInt64 := 0
  deriving Repr, DecidableEq

namespace Sample

/-! ## Fields -/

/-- The fields of a sample, in the order of the columns. -/
def fields (s : Sample) : List String :=
  [toString s.timeStamp.toInt, toString s.elapsed.toNat, s.label, s.responseCode, s.responseMessage, s.threadName,
    s.dataType, if s.success then "true" else "false", s.failureMessage, toString s.bytes.toNat,
    toString s.sentBytes.toNat, toString s.groupThreads.toNat, toString s.allThreads.toNat, s.url,
    toString s.latency.toNat, toString s.idleTime.toNat, toString s.connect.toNat]

/-- The number of fields. -/
def columns : Nat := 17

/-- Reads a number of 64 bits. -/
def readWide (field : Field) : Except Error UInt64 :=
  (field.int .u64).map fun n => UInt64.ofNat n.toNat

/-- Reads a number of 32 bits. -/
def readNarrow (field : Field) : Except Error UInt32 :=
  (field.int .u32).map fun n => UInt32.ofNat n.toNat

/-- The sample of a record. -/
def ofFields : List String → Except Error Sample
  | [timeStamp, elapsed, label, responseCode, responseMessage, threadName, dataType, success, failureMessage, bytes,
      sentBytes, groupThreads, allThreads, url, latency, idleTime, connect] => do
    let timeStamp ← Field.int ⟨0, timeStamp⟩ .i64
    let elapsed ← readWide ⟨1, elapsed⟩
    let success ← Field.bool ⟨7, success⟩
    let bytes ← readWide ⟨9, bytes⟩
    let sentBytes ← readWide ⟨10, sentBytes⟩
    let groupThreads ← readNarrow ⟨11, groupThreads⟩
    let allThreads ← readNarrow ⟨12, allThreads⟩
    let latency ← readWide ⟨14, latency⟩
    let idleTime ← readWide ⟨15, idleTime⟩
    let connect ← readWide ⟨16, connect⟩
    return { timeStamp := Int64.ofInt timeStamp, elapsed, label, responseCode, responseMessage, threadName, dataType,
             success, failureMessage, bytes, sentBytes, groupThreads, allThreads, url, latency, idleTime, connect }
  | fields => .error (.fieldCount columns fields.length)

/-! ## Lines -/

/-- The line of a sample. -/
def toLine (s : Sample) (delimiter : Char) : String :=
  formatLine s.fields delimiter

/-- The sample of a line. -/
def ofLine (line : String) (delimiter : Char) : Except Error Sample := do
  ofFields (← splitLine line delimiter)

/-! ## Typed records -/

/-- The type of samples among all types of records. -/
def shape : Shape :=
  .struct "SampleRecord"
    [("time_stamp", .int .i64), ("elapsed", .int .u64), ("label", .text), ("response_code", .text),
      ("response_message", .text), ("thread_name", .text), ("data_type", .text), ("success", .bool),
      ("failure_message", .text), ("bytes", .int .u64), ("sent_bytes", .int .u64), ("grp_threads", .int .u32),
      ("all_threads", .int .u32), ("url", .text), ("latency", .int .u64), ("idle_time", .int .u64),
      ("connect", .int .u64)]

/-- A sample among all values. -/
def toValue (s : Sample) : Value :=
  .struct "SampleRecord"
    [("time_stamp", .int .i64 s.timeStamp.toInt), ("elapsed", .int .u64 s.elapsed.toNat), ("label", .text s.label),
      ("response_code", .text s.responseCode), ("response_message", .text s.responseMessage),
      ("thread_name", .text s.threadName), ("data_type", .text s.dataType), ("success", .bool s.success),
      ("failure_message", .text s.failureMessage), ("bytes", .int .u64 s.bytes.toNat),
      ("sent_bytes", .int .u64 s.sentBytes.toNat), ("grp_threads", .int .u32 s.groupThreads.toNat),
      ("all_threads", .int .u32 s.allThreads.toNat), ("url", .text s.url), ("latency", .int .u64 s.latency.toNat),
      ("idle_time", .int .u64 s.idleTime.toNat), ("connect", .int .u64 s.connect.toNat)]

/-- The start as a point in time. -/
def start? (s : Sample) : Option Timestamp :=
  Timestamp.ofMillis? s.timeStamp.toInt

end Sample

end DelimitedText
