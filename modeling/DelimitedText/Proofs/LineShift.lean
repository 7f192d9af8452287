import DelimitedText.Proofs.Reading

/-!
# Reading further down

The line on which a record begins goes into the lines that are reported, and into nothing else: from a state `k` lines
further down the scanner takes the same steps, `k` lines further down (`Scanner.feed_below`, `Scanner.scan_below`), and
so does a reading of bytes (`Scanner.readBytes_below`). A reader on a line further down gives the same records and the
same errors, further down, whatever its source delivers (`Reader.givesBelow_readFrom`, `Reader.Below.afterReads`).
-/

namespace DelimitedText

/-- The same error `k` lines further down. -/
def Error.below (k : Nat) : Error → Error
  | .misplacedQuote line column context => .misplacedQuote (line + k) column context
  | .unclosedQuote line context => .unclosedQuote (line + k) context
  | error => error

/-- The same reading `k` lines further down. -/
def Reading.below (k : Nat) (reading : Reading) : Reading where
  result := reading.result.mapError (Error.below k)
  line := reading.line + k
  behind := reading.behind

namespace Scanner

/-- The same state `k` lines further down. -/
def below (k : Nat) (s : Scanner) : Scanner :=
  { s with line := s.line + k }

/-- The same step `k` lines further down. -/
def Step.below (k : Nat) : Step → Step
  | .more next => .more (next.below k)
  | .record fields => .record fields
  | .misplaced error => .misplaced (error.below k)

/-- The same outcome `k` lines further down. -/
def Outcome.below (k : Nat) : Outcome → Outcome
  | .unfinished next => .unfinished (next.below k)
  | .record fields line rest => .record fields (line + k) rest
  | .misplaced error line rest => .misplaced (error.below k) (line + k) rest

variable (k : Nat) (s : Scanner) (c : Char)

/-! ## One character -/

theorem moved_below : (s.below k).moved c = (s.moved c).below k := by
  unfold moved
  by_cases hc : c = '\n'
  · rw [if_pos hc, if_pos hc, below, below, Nat.add_right_comm]
  · rw [if_neg hc, if_neg hc]
    rfl

theorem feedQuotedPlain_below : (s.below k).feedQuotedPlain c = (s.feedQuotedPlain c).below k := by
  have lineBreaks : (s.below k).lineBreaks = s.lineBreaks := rfl
  unfold feedQuotedPlain
  rw [lineBreaks]
  split_ifs <;> rfl

theorem feedQuoted_below : (s.below k).feedQuoted c = (s.feedQuoted c).below k := by
  have pending : (s.below k).pendingBackslash = s.pendingBackslash := rfl
  unfold feedQuoted
  rw [pending]
  dsimp only
  split_ifs
  · rfl
  · rfl
  · exact feedQuotedPlain_below k ({ s with pendingBackslash := false }.push '\\') c
  · exact feedQuotedPlain_below k s c

theorem feedOutside_below (other : Step) :
    (s.below k).feedOutside c (other.below k) = (s.feedOutside c other).below k := by
  have delimiter : (s.below k).delimiter = s.delimiter := rfl
  unfold feedOutside
  rw [delimiter]
  split_ifs
  · rw [Step.below, ← moved_below]
    rfl
  · rfl
  · rfl

/-- One character leads to the same step further down. -/
theorem feed_below : (s.below k).feed c = (s.feed c).below k := by
  have mode : (s.below k).mode = s.mode := rfl
  unfold feed
  rw [mode]
  cases s.mode with
  | fieldStart =>
    dsimp only
    split_ifs
    · rw [Step.below, ← moved_below]
      rfl
    · rw [← feedOutside_below, Step.below, ← moved_below]
      rfl
  | bare =>
    dsimp only
    split_ifs
    · rfl
    · rw [← feedOutside_below, Step.below, ← moved_below]
      rfl
  | quoted =>
    rw [feedQuoted_below, moved_below]
    rfl
  | quoteSeen =>
    dsimp only
    split_ifs
    · rw [Step.below, ← moved_below]
      rfl
    · rw [← feedOutside_below]
      rfl

/-! ## Texts and bytes -/

theorem scan_below (text : List Char) : (s.below k).scan text = (s.scan text).below k := by
  induction text generalizing s with
  | nil => rfl
  | cons c text ih =>
    rw [scan, scan, feed_below]
    cases s.feed c with
    | more next => exact ih next
    | record fields => rfl
    | misplaced error => rfl

/-- A text that begins on some line is scanned as on line 0, further down. -/
theorem scan_start (d : Char) (p : LineBreaks) (line : Nat) (text : List Char) :
    (start d p line).scan text = ((start d p 0).scan text).below line := by
  rw [← scan_below]
  simp [start, below]

theorem finish_below : (s.below k).finish = s.finish := by
  have started : (s.below k).started = s.started := rfl
  have pending : (s.below k).pendingBackslash = s.pendingBackslash := rfl
  unfold finish
  rw [started, pending]
  split_ifs <;> rfl

theorem atEnd_below : (s.below k).atEnd = s.atEnd.mapError (Error.below k) := by
  have isQuoteOpen : (s.below k).isQuoteOpen = s.isQuoteOpen := rfl
  unfold atEnd
  rw [isQuoteOpen, finish_below]
  split_ifs <;> rfl

/-- Bytes are read the same way further down. -/
theorem readBytes_below (bytes : List UInt8) : (s.below k).readBytes bytes = (s.readBytes bytes).below k := by
  fun_induction readBytes s bytes with
  | case1 s => rw [readBytes_nil, atEnd_below]; rfl
  | case2 s bytes hb fault hf => rw [readBytes_fault hb hf]; rfl
  | case3 s bytes hb text ht fields line rest hs =>
    rw [readBytes_line hb (Utf8.decode_eq_ok_iff.1 ht), scan_below, hs]
    exact congrArg (Reading.mk _ · _) (Nat.add_right_comm line k 1)
  | case4 s bytes hb text ht error line rest hs =>
    rw [readBytes_line hb (Utf8.decode_eq_ok_iff.1 ht), scan_below, hs]
    apply congrArg (Reading.mk _ · _)
    split_ifs
    · exact Nat.add_right_comm line k 1
    · rfl
  | case5 s bytes hb text ht s' hs ih =>
    rw [readBytes_line hb (Utf8.decode_eq_ok_iff.1 ht), scan_below, hs]
    exact ih

end Scanner

/-! ## Readers -/

namespace Reader

/-- `old` is `new` on a line `k` further down, whatever the two have reported. -/
def Below (k : Nat) (new old : Reader) : Prop :=
  ∃ journal, old = { new with line := new.line + k, journal }

/-- What a reader gives, and what another gives that is `k` lines further down. -/
structure GivesBelow (k : Nat) (given given' : Except Error (Option (List String)) × Reader) : Prop where
  result : given'.1 = given.1.mapError (Error.below k)
  reader : Below k given.2 given'.2

variable {k : Nat} {new old r₁ : Reader}

theorem Below.line (h : Below k new old) : old.line = new.line + k := by
  obtain ⟨journal, rfl⟩ := h
  rfl

theorem Below.refill (h : Below k new old) : old.refill.1 = new.refill.1 ∧ Below k new.refill.2 old.refill.2 := by
  obtain ⟨journal, rfl⟩ := h
  unfold Reader.refill
  dsimp only
  split
  · exact ⟨rfl, journal, rfl⟩
  split
  · exact ⟨rfl, journal, rfl⟩
  split
  · exact ⟨rfl, journal, rfl⟩
  split <;> exact ⟨rfl, journal, rfl⟩

/-- The reader further down asks for its next line in the same state, further down. -/
theorem Below.readFrom_of_unfinished (h : Below k new old) {s s' : Scanner} {result : Except Error Bool}
    (hs : s.scan new.pending = .unfinished s') (hr : (new.scanned s s').refill = (result, r₁)) (first : Nat) :
    ∃ r₂, Below k r₁ r₂ ∧ old.readFrom first (s.below k) = match (result, r₂) with
      | (.error error, r) => (.error error, r)
      | (.ok true, r) => r.readFrom first (s'.below k)
      | (.ok false, r) => ((s'.below k).atEnd, r) := by
  have scanned : Below k (new.scanned s s') (old.scanned (s.below k) (s'.below k)) := by
    obtain ⟨journal, rfl⟩ := h
    exact ⟨_, rfl⟩
  obtain ⟨same, next⟩ := scanned.refill
  rw [hr] at same next
  have run : (s.below k).scan old.pending = .unfinished (s'.below k) := by
    obtain ⟨journal, rfl⟩ := h
    rw [Scanner.scan_below, hs]
    rfl
  refine ⟨_, next, ?_⟩
  rw [Reader.readFrom_of_unfinished run]
  generalize (old.scanned (s.below k) (s'.below k)).refill = refilled at same
  obtain ⟨result', r₂⟩ := refilled
  cases same
  rfl

/-- **One read** comes out the same further down, over any source. -/
theorem givesBelow_readFrom (k : Nat) (new : Reader) (first : Nat) (s : Scanner) : ∀ {old : Reader} (first' : Nat),
    Below k new old → GivesBelow k (new.readFrom first s) (old.readFrom first' (s.below k)) := by
  fun_induction readFrom new first s
  case case1 r s continued fields line rest hs spanned =>
    rintro old first' ⟨journal, rfl⟩
    rw [readFrom]
    simp only [Scanner.scan_below, hs, Scanner.Outcome.below]
    rw [Nat.add_right_comm line k 1]
    exact ⟨rfl, _, rfl⟩
  case case2 r s continued error line rest hs =>
    rintro old first' ⟨journal, rfl⟩
    rw [readFrom]
    simp only [Scanner.scan_below, hs, Scanner.Outcome.below]
    rw [Nat.add_right_comm line k 1]
    split_ifs <;> exact ⟨rfl, _, rfl⟩
  case case3 r s continued s' hs error r₁ hr =>
    intro old first' h
    obtain ⟨message, rfl⟩ := exists_io_of_refill hr
    obtain ⟨r₂, below, read⟩ := h.readFrom_of_unfinished hs hr first'
    rw [read]
    exact ⟨rfl, below⟩
  case case4 r s continued s' hs r₁ hr ih =>
    intro old first' h
    obtain ⟨r₂, below, read⟩ := h.readFrom_of_unfinished hs hr first'
    rw [read]
    exact ih first' below
  case case5 r s continued s' hs r₁ hr hq =>
    intro old first' h
    obtain ⟨r₂, below, read⟩ := h.readFrom_of_unfinished hs hr first'
    have ended : s'.atEnd = .error (.unclosedQuote s'.line s'.field) := if_pos hq
    rw [read, ← ended]
    exact ⟨s'.atEnd_below k, below⟩
  case case6 r s continued s' hs r₁ hr hq =>
    intro old first' h
    obtain ⟨r₂, below, read⟩ := h.readFrom_of_unfinished hs hr first'
    have ended : s'.atEnd = .ok s'.finish := if_neg hq
    rw [read, ← ended]
    exact ⟨s'.atEnd_below k, below⟩

theorem Below.read (h : Below k new old) : GivesBelow k new.read old.read := by
  obtain ⟨journal, rfl⟩ := h
  have given := givesBelow_readFrom k new new.line (Scanner.start new.delimiter new.lineBreaks new.line) (new.line + k)
    ⟨journal, rfl⟩
  exact given

/-- **Any number of reads.** -/
theorem Below.afterReads (h : Below k new old) (n : Nat) : Below k (new.afterReads n) (old.afterReads n) := by
  induction n generalizing new old with
  | zero => exact h
  | succ n ih => exact ih h.read.reader

end Reader

end DelimitedText
