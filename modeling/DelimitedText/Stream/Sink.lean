/-!
# Sinks of bytes

A sink takes bytes in calls that may accept only some of them, be interrupted, or fail. `Sink.writeAll` repeats calls
until all bytes are accepted or one call refuses for good.
-/

namespace DelimitedText

/-- How a sink answers one call to write. -/
inductive Sink.Reply where
  /-- the number of bytes that the call accepts, if there are so many -/
  | accept (atMost : Nat)
  /-- no byte is accepted, and the call may be repeated -/
  | interrupted
  | failure (message : String)
  deriving Repr, DecidableEq

/-- A sink: how it will answer, and what it has received. Without a prepared answer it accepts everything. -/
structure Sink where
  writes : List Sink.Reply := []
  /-- one entry a flush, holding the message of its failure -/
  flushes : List (Option String) := []
  received : List UInt8 := []
  deriving Repr, DecidableEq

/-- The bytes that were accepted, the failure that stopped the writing, and the answers that are left. -/
structure Sink.Written where
  bytes : List UInt8
  failure : Option String
  rest : List Sink.Reply
  deriving Repr, DecidableEq

namespace Sink

/-- The failure of a sink that accepts nothing. -/
def refusesAll : String := "failed to write whole buffer"

/-- Writes all bytes against the answers that the sink will give. -/
def writeAll (bytes : List UInt8) : List Reply → Written
  | [] => ⟨bytes, none, []⟩
  | reply :: rest =>
    if bytes.isEmpty then ⟨[], none, reply :: rest⟩
    else
      match reply with
      | .interrupted => writeAll bytes rest
      | .failure message => ⟨[], some message, rest⟩
      | .accept 0 => ⟨[], some refusesAll, rest⟩
      | .accept n@(_ + 1) =>
        let written := writeAll (bytes.drop n) rest
        { written with bytes := bytes.take n ++ written.bytes }

/-- The sink after a call to write all bytes, and the failure of that call. -/
def write (s : Sink) (bytes : List UInt8) : Option String × Sink :=
  let written := writeAll bytes s.writes
  (written.failure, { s with writes := written.rest, received := s.received ++ written.bytes })

/-- The sink after a call to flush, and the failure of that call. -/
def flush (s : Sink) : Option String × Sink :=
  match s.flushes with
  | [] => (none, s)
  | failure :: rest => (failure, { s with flushes := rest })

end Sink

end DelimitedText
