/-!
# Sources of bytes

A source hands out bytes in chunks. It may fail in between and go on afterwards, and it may report the end of its input
and still have bytes for whoever asks again. `Source.takeLine` takes one physical line: all bytes up to and with the
first line feed, carriage return, or carriage return and line feed. It takes no byte beyond that.
-/

namespace DelimitedText

/-- The byte of a line feed. -/
def lineFeed : UInt8 := 10

/-- The byte of a carriage return. -/
def carriageReturn : UInt8 := 13

/-- What a source has in store for one request. -/
inductive Source.Event where
  /-- bytes, of which a request sees all that are left -/
  | chunk (bytes : List UInt8)
  /-- a failure, which one request meets -/
  | failure (message : String)
  /-- a report that the input has ended, which one request meets -/
  | pause
  deriving Repr, DecidableEq

/-- What is left of a source, and how many bytes were taken from it. -/
structure Source where
  events : List Source.Event
  consumed : Nat := 0
  deriving Repr, DecidableEq

/-- The bytes taken for one physical line, the failure that cut it short, and the events that are left. -/
structure Source.Taken where
  bytes : List UInt8
  failure : Option String
  rest : List Source.Event
  deriving Repr, DecidableEq

namespace Source

/-- The bytes that are left, with failures and pauses passed over. -/
def Event.unread : List Event → List UInt8
  | [] => []
  | .chunk bytes :: rest => bytes ++ unread rest
  | _ :: rest => unread rest

/-- The bytes that were not taken yet. -/
def unread (s : Source) : List UInt8 :=
  Event.unread s.events

/-- More bytes in front of those taken. -/
def Taken.prepend (bytes : List UInt8) (t : Taken) : Taken :=
  { t with bytes := bytes ++ t.bytes }

/-- Whether `b` is neither of the two bytes that end a line. -/
def isWithinLine (b : UInt8) : Bool :=
  !(b == lineFeed || b == carriageReturn)

/-- Takes a line feed if that is the next byte. -/
def takeLineFeed : List Event → Taken
  | [] => ⟨[], none, []⟩
  | .failure message :: rest => ⟨[], some message, rest⟩
  | .pause :: rest => ⟨[], none, rest⟩
  | .chunk [] :: rest => takeLineFeed rest
  | .chunk (b :: bytes) :: rest =>
    if b = lineFeed then ⟨[b], none, .chunk bytes :: rest⟩ else ⟨[], none, .chunk (b :: bytes) :: rest⟩

/-- Takes the bytes of one physical line. A pause ends the line, and a failure cuts it short. -/
def takeLine : List Event → Taken
  | [] => ⟨[], none, []⟩
  | .failure message :: rest => ⟨[], some message, rest⟩
  | .pause :: rest => ⟨[], none, rest⟩
  | .chunk bytes :: rest =>
    match bytes.dropWhile isWithinLine with
    | [] => (takeLine rest).prepend bytes
    | terminator :: behind =>
      let content := bytes.takeWhile isWithinLine ++ [terminator]
      if terminator = carriageReturn then (takeLineFeed (.chunk behind :: rest)).prepend content
      else ⟨content, none, .chunk behind :: rest⟩

/-- The source once a line was taken from it. -/
def behind (s : Source) (t : Taken) : Source :=
  ⟨t.rest, s.consumed + t.bytes.length⟩

/-! ## Nothing is lost -/

theorem bytes_append_takeLineFeed (events : List Event) :
    (takeLineFeed events).bytes ++ Event.unread (takeLineFeed events).rest = Event.unread events := by
  fun_induction takeLineFeed events <;> simp_all [Event.unread]

/-- The bytes taken and the bytes left are the bytes that there were. -/
theorem bytes_append_takeLine (events : List Event) :
    (takeLine events).bytes ++ Event.unread (takeLine events).rest = Event.unread events := by
  induction events with
  | nil => simp [takeLine, Event.unread]
  | cons event rest ih =>
    cases event with
    | failure message => simp [takeLine, Event.unread]
    | pause => simp [takeLine, Event.unread]
    | chunk bytes =>
      simp only [takeLine]
      split
      · simp only [Taken.prepend, Event.unread, List.append_assoc, ih]
      · rename_i terminator behind hd
        have hb : bytes = bytes.takeWhile isWithinLine ++ terminator :: behind := by
          rw [← hd, List.takeWhile_append_dropWhile]
        have hf := bytes_append_takeLineFeed (.chunk behind :: rest)
        simp only [Event.unread] at hf
        split
        · simp only [Taken.prepend, Event.unread, List.append_assoc, hf]
          conv => rhs; rw [hb]
          simp
        · simp only [Event.unread]
          conv => rhs; rw [hb]
          simp

/-- The number of bytes that were not taken yet. -/
def remaining (s : Source) : Nat :=
  s.unread.length

theorem remaining_behind_takeLine (s : Source) :
    (s.behind (takeLine s.events)).remaining + (takeLine s.events).bytes.length = s.remaining := by
  have := congrArg List.length (bytes_append_takeLine s.events)
  simp only [List.length_append] at this
  simp only [remaining, unread, behind]
  omega

end Source

end DelimitedText
