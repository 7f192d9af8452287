import DelimitedText.Line.Scanner
import DelimitedText.Notice
import DelimitedText.Stream.Source
import DelimitedText.Text.Utf8

/-!
# Reading records from a source

A `Reader` takes one physical line at a time and scans it; while a record is not complete it takes further lines.
`Reader.read` returns the next record, `none` at the end of the input. A misplaced quote drops the rest of its physical
line, and an open quote at the end of the input is an error. Each record that is returned uses up characters
(`Reader.remaining_read`), so reading record after record comes to an end.
-/

namespace DelimitedText

/-- A source of records. -/
structure Reader where
  source : Source
  delimiter : Char
  lineBreaks : LineBreaks
  /-- what is left of the physical line taken last -/
  pending : List Char := []
  /-- the physical line of the next character, counted from 1 -/
  line : Nat := 1
  /-- whether the source has reported the end of its input where a line would begin -/
  exhausted : Bool := false
  /-- what was reported so far -/
  journal : List Notice := []
  deriving Repr, DecidableEq

namespace Reader

/-- A reader with any delimiter that keeps the text inside quotes as it is. -/
def ofSource (source : Source) (delimiter : Char) : Reader :=
  { source, delimiter, lineBreaks := .raw }

/-- A reader with the conventions of `options`. -/
def ofOptions (source : Source) (options : Options) : Reader :=
  { source, delimiter := options.delimiter.char, lineBreaks := options.lineBreaks }

/-! ## Physical lines -/

/-- Takes the next physical line, once no character is pending; `false` at the end of the input, which is final. The
bytes of a line that failed or is no text are lost. -/
def refill (r : Reader) : Except Error Bool × Reader :=
  if r.exhausted then (.ok false, r)
  else
    let taken := Source.takeLine r.source.events
    let r := { r with source := r.source.behind taken }
    match taken.failure with
    | some message => (.error (.io message), r)
    | none =>
      if taken.bytes.isEmpty then (.ok false, { r with exhausted := true })
      else
        match Utf8.decode taken.bytes with
        | .ok text => (.ok true, { r with pending := text })
        | .error fault => (.error (.io fault.message), r)

/-- The number of bytes and pending characters that were not used yet. -/
def remaining (r : Reader) : Nat :=
  r.source.remaining + r.pending.length

/-- A line that was taken is no longer in the source, and its text is no longer than its bytes. -/
theorem remaining_refill {r r' : Reader} {more : Bool} (hp : r.pending = []) (h : r.refill = (.ok more, r')) :
    r'.remaining ≤ r.remaining ∧ (more = true → r'.source.remaining < r.source.remaining) := by
  have hs := r.source.remaining_behind_takeLine
  simp only [refill] at h
  split at h
  · simp only [Prod.mk.injEq, Except.ok.injEq] at h
    obtain ⟨rfl, rfl⟩ := h
    simp_all
  · split at h
    · simp at h
    · split at h
      · simp only [Prod.mk.injEq, Except.ok.injEq] at h
        obtain ⟨rfl, rfl⟩ := h
        exact ⟨by simp only [remaining]; omega, by simp⟩
      · rename_i hne
        split at h
        · rename_i text htext
          simp only [Prod.mk.injEq, Except.ok.injEq] at h
          obtain ⟨rfl, rfl⟩ := h
          have hlen := Utf8.length_decode htext
          have hpos : 0 < (Source.takeLine r.source.events).bytes.length :=
            List.length_pos_iff.2 (by simpa using hne)
          exact ⟨by simp only [remaining, hp, List.length_nil]; omega, fun _ => by simp only []; omega⟩
        · simp at h

/-! ## Records -/

/-- Whether a text ends in a line break. -/
def endsLine (text : List Char) : Bool :=
  text.getLast?.any isLineBreak

/-- Completes the record that began on line `first` and brought the scanner to `s`. -/
def readFrom (r : Reader) (first : Nat) (s : Scanner) : Except Error (Option (List String)) × Reader :=
  let continued := (s.continuedLines r.pending).map Notice.continuedOn
  match s.scan r.pending with
  | .record fields line rest =>
    let spanned := if first < line then [.spannedLines first line] else []
    (.ok (some fields),
      { r with pending := rest, line := line + 1, journal := r.journal ++ continued ++ spanned })
  | .misplaced error line rest =>
    (.error error,
      { r with pending := [], line := if endsLine rest then line + 1 else line, journal := r.journal ++ continued })
  | .unfinished s =>
    match _h : ({ r with pending := [], line := s.line, journal := r.journal ++ continued } : Reader).refill with
    | (.error error, r) => (.error error, r)
    | (.ok true, r) => r.readFrom first s
    | (.ok false, r) =>
      if s.isQuoteOpen then (.error (.unclosedQuote s.line s.field), r) else (.ok s.finish, r)
  termination_by r.source.remaining
  decreasing_by exact (remaining_refill rfl _h).2 rfl

/-- The next record, or `none` at the end of the input. -/
def read (r : Reader) : Except Error (Option (List String)) × Reader :=
  r.readFrom r.line (Scanner.start r.delimiter r.lineBreaks r.line)

/-- A record that is returned used up input, or completes one that had begun. -/
theorem remaining_readFrom {r r' : Reader} {first : Nat} {s : Scanner} {fields : List String}
    (h : r.readFrom first s = (.ok (some fields), r')) :
    r'.remaining < r.remaining ∨ (s.started = true ∧ r'.remaining ≤ r.remaining) := by
  fun_induction readFrom r first s with
  | case1 r s continued fields' line rest hs spanned =>
    simp only [Prod.mk.injEq] at h
    have := Scanner.length_lt_of_scan_eq_record hs
    simp only [← h.2, remaining]
    omega
  | case2 => simp at h
  | case3 => simp at h
  | case4 r s continued s' hs r₁ hr ih =>
    have hle := (remaining_refill rfl hr).1
    have hr' := ih h
    cases hp : r.pending with
    | nil =>
      simp only [hp, Scanner.scan, Scanner.Outcome.unfinished.injEq] at hs
      subst hs
      simp only [remaining, hp, List.length_nil] at *
      exact hr'.imp (fun h => by omega) (fun h => ⟨h.1, by omega⟩)
    | cons c text =>
      simp only [remaining, hp, List.length_cons, List.length_nil] at *
      omega
  | case5 => simp at h
  | case6 r s continued s' hs r₁ hr hq =>
    have hle := (remaining_refill rfl hr).1
    simp only [Prod.mk.injEq, Except.ok.injEq] at h
    obtain ⟨hf, rfl⟩ := h
    cases hp : r.pending with
    | nil =>
      simp only [hp, Scanner.scan, Scanner.Outcome.unfinished.injEq] at hs
      subst hs
      simp only [remaining, hp, List.length_nil] at *
      refine Or.inr ⟨?_, by omega⟩
      simp only [Scanner.finish] at hf
      split at hf
      · assumption
      · simp at hf
    | cons c text =>
      simp only [remaining, hp, List.length_cons, List.length_nil] at *
      omega

/-- Each record that is returned uses up input. -/
theorem remaining_read {r r' : Reader} {fields : List String} (h : r.read = (.ok (some fields), r')) :
    r'.remaining < r.remaining := by
  rcases remaining_readFrom h with h | h
  · exact h
  · simp [Scanner.start] at h

/-- The next record of an iteration that passes over malformed lines and that ends with the input or with the first
failure of the source. -/
def next (r : Reader) : Option (Except Error (List String)) × Reader :=
  match r.read with
  | (.ok none, r) => (none, r)
  | (.ok (some fields), r) => (some (.ok fields), r)
  | (.error error, r) =>
    (some (.error error), if error.isParseError then r else { r with pending := [], exhausted := true })

/-- The next records of an iteration, at most `limit` of them. -/
def records (r : Reader) : Nat → List (Except Error (List String)) × Reader
  | 0 => ([], r)
  | limit + 1 =>
    match r.next with
    | (none, r) => ([], r)
    | (some record, r) =>
      let (more, r) := r.records limit
      (record :: more, r)

end Reader

end DelimitedText
