import DelimitedText.Proofs.Reading
import DelimitedText.Typed

/-!
# Calls of a reader, and the end of its input

A reader is asked for its next record, for the value of that record, or for the next item of an iteration (`Call`).
Each of the three reads a record, and only an iteration does more, behind a failure (`Reader.snd_readValue`,
`Reader.snd_next`).

A reader that is `Ended` has found the end of its input and holds nothing back. A read that finds the end leaves it so,
also within a quoted field (`Reader.ended_readFrom`), and an iteration that meets a failure makes it so
(`Reader.ended_call`). From then on every call is answered with nothing and changes nothing, and none of them looks at
the source (`Reader.Ended.call`); so the end is final, whatever the source may still hold (`end_is_final`).
-/

namespace DelimitedText

/-! ## Calls -/

/-- A request to a reader. An iteration keeps nothing of its own, so it does not matter when it began. -/
inductive Call where
  /-- the next record -/
  | record
  /-- the next record as a value -/
  | value (shape : Shape)
  /-- the next item of an iteration -/
  | item

/-- What a request is answered with. -/
inductive Answer where
  | record (result : Except Error (Option (List String)))
  | value (result : Except Error (Option Value))
  | item (next : Option (Except Error (List String)))

/-- The answer that there is nothing more. -/
def Call.nothing : Call → Answer
  | .record => .record (.ok none)
  | .value _ => .value (.ok none)
  | .item => .item none

/-- The end of the input, found where a record would begin or within a quoted field. -/
inductive FindsEnd : Except Error (Option (List String)) → Prop where
  | between : FindsEnd (.ok none)
  | inQuotes (line : Nat) (context : String) : FindsEnd (.error (.unclosedQuote line context))

namespace Reader

/-- Answers a request. -/
def call (r : Reader) : Call → Answer × Reader
  | .record => (.record r.read.1, r.read.2)
  | .value shape => (.value (r.readValue shape).1, (r.readValue shape).2)
  | .item => (.item r.next.1, r.next.2)

/-- The reader once it has answered requests, one after the other. -/
def afterCalls (r : Reader) : List Call → Reader
  | [] => r
  | c :: calls => (r.call c).2.afterCalls calls

/-- The reader once an iteration has given up on it. -/
def stopped (r : Reader) : Reader :=
  { r with pending := [], exhausted := true }

variable {r r' : Reader}

theorem snd_readValue (r : Reader) (shape : Shape) : (r.readValue shape).2 = r.read.2 := by
  unfold readValue
  split <;> rename_i h <;> rw [h]

/-- An iteration gives up on a reader that fails for another cause than the text of its record. -/
theorem snd_next (r : Reader) : r.next.2 = match r.read.1 with
    | .ok _ => r.read.2
    | .error error => if error.isParseError then r.read.2 else r.read.2.stopped := by
  unfold next
  split <;> rename_i h <;> rw [h]
  rfl

/-! ## Readers at the end -/

/-- A reader that has found the end of its input and holds nothing back. -/
structure Ended (r : Reader) : Prop where
  exhausted : r.exhausted = true
  pending : r.pending = []

/-- The source has no part in it. -/
theorem Ended.withSource (h : r.Ended) (source : Source) : ({ r with source } : Reader).Ended :=
  ⟨h.exhausted, h.pending⟩

namespace Ended

theorem refill (h : r.Ended) : r.refill = (.ok false, r) := by
  rw [Reader.refill, if_pos h.exhausted]

theorem read (h : r.Ended) : r.read = (.ok none, r) := by
  have nothing : (Scanner.start r.delimiter r.lineBreaks r.line).scan r.pending =
      .unfinished (Scanner.start r.delimiter r.lineBreaks r.line) := by
    rw [h.pending]
    rfl
  rw [Reader.read, readFrom_of_unfinished nothing, scanned_of_pending_nil h.pending rfl, h.refill]
  rfl

/-- **One call** is answered with nothing and leaves the reader as it is. -/
theorem call (h : r.Ended) (c : Call) : r.call c = (c.nothing, r) := by
  cases c with
  | record => rw [Reader.call, h.read]; rfl
  | value shape => rw [Reader.call, readValue, h.read]; rfl
  | item => rw [Reader.call, next, h.read]; rfl

/-- **Any number of calls** leave it as it is. -/
theorem afterCalls (h : r.Ended) (calls : List Call) : r.afterCalls calls = r := by
  induction calls with
  | nil => rfl
  | cons c calls ih => rw [Reader.afterCalls, h.call, ih]

/-- **Any number of reads.** -/
theorem afterReads (h : r.Ended) (n : Nat) : r.afterReads n = r := by
  induction n with
  | zero => rfl
  | succ n ih => rw [Reader.afterReads, h.read, ih]

theorem records (h : r.Ended) (limit : Nat) : r.records limit = ([], r) := by
  cases limit with
  | zero => rfl
  | succ limit => rw [Reader.records, next, h.read]

end Ended

/-! ## How a reader comes to the end -/

/-- A refill that finds no more finds the end for good. -/
theorem ended_refill (hp : r.pending = []) (h : r.refill = (.ok false, r')) : r'.Ended := by
  have given := r.refills
  rw [h] at given
  cases given with
  | ended exhausted => exact ⟨exhausted, hp⟩
  | nothing bytes => exact ⟨rfl, hp⟩

/-- **One read.** Where it finds the end, the reader is at its end. -/
theorem ended_readFrom (r : Reader) (first : Nat) (s : Scanner) (h : FindsEnd (r.readFrom first s).1) :
    (r.readFrom first s).2.Ended := by
  fun_induction readFrom r first s with
  | case1 => cases h
  | case2 r s continued error line rest hs =>
    obtain ⟨_, _, t, -, -, misplaced, -⟩ := Scanner.scan_eq_misplaced hs
    obtain ⟨-, context, rfl⟩ := Scanner.feed_eq_misplaced misplaced
    cases h
  | case3 r s continued s' hs error r' hr =>
    obtain ⟨message, rfl⟩ := exists_io_of_refill hr
    cases h
  | case4 r s continued s' hs r' hr ih => exact ih h
  | case5 r s continued s' hs r' hr => exact ended_refill rfl hr
  | case6 r s continued s' hs r' hr => exact ended_refill rfl hr

/-- A call that ends the input: it finds the end, or it is an iteration that meets a failure. -/
def EndsWith (r : Reader) (c : Call) : Prop :=
  FindsEnd r.read.1 ∨ c = .item ∧ ∃ error, r.next.1 = some (.error error) ∧ error.isParseError = false

/-- An iteration that passes on an error read no record for it. -/
theorem read_of_next {error : Error} (h : r.next.1 = some (.error error)) : r.read.1 = .error error := by
  unfold next at h
  split at h <;> rename_i hr <;> rw [hr] <;> cases h
  rfl

theorem ended_call {c : Call} (h : r.EndsWith c) : (r.call c).2.Ended := by
  rcases h with h | ⟨rfl, error, hn, he⟩
  · have ended : r.read.2.Ended := ended_readFrom r r.line _ h
    cases c with
    | record => exact ended
    | value shape =>
      rw [call, snd_readValue]
      exact ended
    | item =>
      rw [call, snd_next]
      generalize r.read.1 = result at h
      cases h <;> exact ended
  · rw [call, snd_next, read_of_next hn]
    simp only [he, Bool.false_eq_true, if_false]
    exact ⟨rfl, rfl⟩

end Reader

/-- **The end is final.** Once a read has found the end of the input, or an iteration has passed on a failure, every
later request is answered with nothing, in whichever order they come, and neither the line nor the source changes. The
source is not asked again: had it anything else in store, it would keep that, and the answers would be the same. -/
theorem end_is_final {r : Reader} {c : Call} (h : r.EndsWith c) (later : List Call) :
    let ended := (r.call c).2
    let now := ended.afterCalls later
    (now.line = ended.line ∧ now.source.consumed = ended.source.consumed ∧ now.source.events = ended.source.events) ∧
    (now.read.1 = .ok none ∧ (∀ shape, (now.readValue shape).1 = .ok none) ∧ now.next.1 = none ∧
      ∀ limit, (now.records limit).1 = []) ∧
    ∀ (other : Source) (next : Call),
      ({ now with source := other } : Reader).call next = (next.nothing, { now with source := other }) := by
  intro ended now
  have final : ended.Ended := Reader.ended_call h
  have same : now = ended := final.afterCalls later
  rw [same]
  refine ⟨⟨rfl, rfl, rfl⟩, ⟨?_, ?_, ?_, ?_⟩, fun other next => (final.withSource other).call next⟩
  · rw [final.read]
  · intro shape
    rw [Reader.readValue, final.read]
  · rw [Reader.next, final.read]
  · intro limit
    rw [final.records]

/-- A source that has more behind the end that it reports, and one that recovers from a failure. -/
theorem end_is_final_recovering :
    let paused := Reader.fresh ⟨[.pause, .chunk [97, 10]], 0⟩ ',' .raw
    let failing := Reader.fresh ⟨[.failure "lost", .chunk [97, 10]], 0⟩ ',' .raw
    (paused.EndsWith .record ∧
      let now := (paused.call .record).2.afterCalls [.item, .record]
      now.read.1 = .ok none ∧ now.source.events = [.chunk [97, 10]]) ∧
    (failing.EndsWith .item ∧
      let now := (failing.call .item).2.afterCalls [.value .text]
      now.read.1 = .ok none ∧ now.source.events = [.chunk [97, 10]]) := by
  intro paused failing
  have found : paused.read = (.ok none, { paused with source := ⟨[.chunk [97, 10]], 0⟩, exhausted := true }) := by
    rw [Reader.read, Reader.readFrom_of_unfinished rfl]
    rfl
  have lost : failing.read = (.error (.io "lost"), { failing with source := ⟨[.chunk [97, 10]], 0⟩ }) := by
    rw [Reader.read, Reader.readFrom_of_unfinished rfl]
    rfl
  have first : paused.EndsWith .record := .inl (by rw [found]; exact .between)
  have second : failing.EndsWith .item := .inr ⟨rfl, .io "lost", by rw [Reader.next, lost], rfl⟩
  obtain ⟨⟨-, -, events⟩, ⟨read, -⟩, -⟩ := end_is_final first [.item, .record]
  obtain ⟨⟨-, -, events'⟩, ⟨read', -⟩, -⟩ := end_is_final second [.value .text]
  refine ⟨⟨first, read, events.trans ?_⟩, second, read', events'.trans ?_⟩
  · rw [Reader.call, found]
  · rw [Reader.call, Reader.next, lost]
    rfl

end DelimitedText
