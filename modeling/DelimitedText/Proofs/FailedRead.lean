import DelimitedText.Proofs.Interruption
import DelimitedText.Proofs.Resume

/-!
# Where a read stops that meets a failure

Between two reads over a source that may fail, but does not pause, a reader either rests or faces the next failure
(`Reader.Stands`). A read that does not meet the failure stops where a line ends, as it would over the bytes alone. A
read that does has taken everything up to the failure, be it within a line, and gives none of it back
(`Reader.Stands.read`). So it is only behind a failure that a reader may go on within a line (`read_ends_line`), and
there it does: what follows is read as a record of its own (`record_within_line`).
-/

namespace DelimitedText

/-- Whether a source never reports the end of its input in front of something else. -/
def Source.NeverPauses (s : Source) : Prop :=
  ∀ event ∈ s.events, event ≠ .pause

instance (s : Source) : Decidable s.NeverPauses :=
  List.decidableBAll (fun event : Source.Event => event ≠ .pause) s.events

/-- Unless it is plain, such a source delivers some chunks and then fails. -/
theorem Source.NeverPauses.cases {s : Source} (h : s.NeverPauses) : s.IsPlain ∨
    ∃ before message after, s.events = before ++ .failure message :: after ∧
      (∀ event ∈ before, event.isChunk = true) ∧ ∀ event ∈ after, event ≠ .pause := by
  obtain ⟨events, consumed⟩ := s
  unfold NeverPauses at h
  unfold IsPlain
  dsimp only at h ⊢
  induction events with
  | nil => exact .inl fun event he => absurd he List.not_mem_nil
  | cons event rest ih =>
    obtain ⟨head, tail⟩ := List.forall_mem_cons.1 h
    cases event with
    | pause => exact absurd rfl head
    | failure message =>
      exact .inr ⟨[], message, rest, rfl, fun event he => absurd he List.not_mem_nil, tail⟩
    | chunk bytes =>
      rcases ih tail with plain | ⟨before, message, after, rfl, plain, more⟩
      · exact .inl (List.forall_mem_cons.2 ⟨rfl, plain⟩)
      · exact .inr ⟨.chunk bytes :: before, message, after, rfl, List.forall_mem_cons.2 ⟨rfl, plain⟩, more⟩

/-- Bytes that are taken up to where others begin to be left end a line. -/
theorem Takes.beginsLine {first : Scanner} {result : Except Error (Option (List String))} {taken behind : List UInt8}
    (h : Takes first result taken behind) (before : List UInt8) :
    behind = [] ∨ BeginsLine (before ++ taken) behind := by
  by_cases hb : behind = []
  · exact .inl hb
  refine .inr ?_
  cases h with
  | terminated run ends cut =>
    rw [Utf8.encode_append]
    exact .inr ⟨_, _, (List.append_assoc _ _ _).symm, cut⟩
  | unterminated => exact absurd rfl hb
  | nothing => exact absurd rfl hb
  | unclosed => exact absurd rfl hb
  | misplaced run ends cut =>
    rw [Utf8.encode_append, ← List.append_assoc]
    exact beginsLine_of_isLine cut hb _
  | undecodable run begins cut fails =>
    rw [← List.append_assoc]
    exact beginsLine_of_isLine cut hb _

namespace Reader

variable {r : Reader} {taken : List UInt8}

/-- A reader between two records over a source that never pauses. -/
inductive Stands (r : Reader) : Prop where
  /-- nothing but bytes are ahead -/
  | resting {bytes : List UInt8} (rests : r.Rests bytes)
  /-- bytes and then a failure are ahead -/
  | facing {bytes : List UInt8} {message : String} {after : List Source.Event}
      (faces : r.Faces bytes (.failure message) after) (more : ∀ event ∈ after, event ≠ .pause)

theorem Stands.pending (h : r.Stands) : r.pending = [] := by
  cases h with
  | resting rests => exact rests.pending
  | facing faces _ => exact faces.pending

/-- The next read fails with the source, once it has taken all the bytes in front of the failure. -/
def MeetsFailure (r : Reader) (taken : List UInt8) : Prop :=
  ∃ delivered message, r.source.events = delivered ++ .failure message :: r.read.2.source.events ∧
    (∀ event ∈ delivered, event.isChunk = true) ∧ Source.Event.unread delivered = taken ∧
    r.read.1 = .error (.io message)

theorem stands_of_neverPauses (hs : r.source.NeverPauses) (hp : r.pending = []) (he : r.exhausted = false) :
    r.Stands := by
  rcases hs.cases with plain | ⟨before, message, after, events, plain, more⟩
  · exact .resting (rests_of_not_exhausted plain hp he)
  · exact .facing ⟨⟨before, plain, rfl, events⟩, hp, he⟩ more

/-- **One read** stops where a line ends, or at a failure. -/
theorem Stands.read (h : r.Stands) : r.read.2.Stands ∧ ∃ taken, r.source.unread = taken ++ r.read.2.source.unread ∧
    (Takes (Scanner.start r.delimiter r.lineBreaks r.line) r.read.1 taken r.read.2.source.unread ∨
      r.MeetsFailure taken) := by
  have run : (Scanner.start r.delimiter r.lineBreaks r.line).scan [] =
      .unfinished (Scanner.start r.delimiter r.lineBreaks r.line) := rfl
  cases h with
  | @resting bytes rests =>
    have yields := rests.read
    obtain ⟨taken, unread, takes⟩ := Scanner.takes_readBytes rfl run fun _ : bytes ≠ [] => .inl rfl
    rw [← yields.result, ← yields.rests.unread] at takes
    rw [← yields.rests.unread] at unread
    exact ⟨.resting yields.rests, taken, rests.unread.trans unread, .inl takes⟩
  | @facing bytes message after faces more =>
    by_cases stops : (Scanner.start r.delimiter r.lineBreaks r.line).openLine bytes = none
    · have yields := faces.read stops
      -- where the read stops does not depend on what follows, so the bytes behind the failure may stand in its place
      obtain ⟨taken, unread, takes⟩ := Scanner.takes_readBytes rfl run
        fun _ : bytes ++ Source.Event.unread (.failure message :: after) ≠ [] => .inl rfl
      rw [Scanner.readBytes_append_of_openLine_eq_none stops] at unread takes
      rw [← faces.unread, ← yields.faces.unread] at unread
      rw [← yields.faces.unread, ← yields.result] at takes
      exact ⟨.facing yields.faces more, taken, unread, .inl takes⟩
    · have fails := faces.read_fails stops
      obtain ⟨delivered, plain, rfl, events⟩ := faces.events
      have left : r.read.2.source.events = after := fails.events
      have unread : r.source.unread = Source.Event.unread delivered ++ r.read.2.source.unread := by
        rw [faces.unread, ← left]
        rfl
      refine ⟨stands_of_neverPauses ?_ fails.pending fails.exhausted, _, unread,
        .inr ⟨delivered, message, ?_, plain, rfl, fails.result⟩⟩
      · rw [Source.NeverPauses, left]
        exact more
      · rw [left]
        exact events

/-- **Any number of reads.** -/
theorem Stands.afterReads (h : r.Stands) (n : Nat) : (r.afterReads n).Stands := by
  induction n generalizing r with
  | zero => exact h
  | succ n ih => exact ih h.read.1

end Reader

/-- **Reads end lines, or fail.** Behind each read over a source that may fail but does not pause, the bytes that are
consumed end with a line break, or are all there are, and the read has taken just those that its result accounts for;
unless it met a failure. Then it has taken all the bytes in front of the failure, and nothing keeps them. -/
theorem read_ends_line {source : Source} {d : Char} {p : LineBreaks} {n : Nat} {r : Reader} (hs : source.NeverPauses)
    (hr : (Reader.fresh source d p).afterReads n = r) :
    ∃ before taken, source.unread = before ++ taken ++ r.read.2.source.unread ∧
      r.source.consumed = source.consumed + before.length ∧
      r.read.2.source.consumed = source.consumed + (before ++ taken).length ∧
      r.read.2.pending = [] ∧
      (Takes (Scanner.start d p r.line) r.read.1 taken r.read.2.source.unread ∧
          (r.read.2.source.unread = [] ∨ BeginsLine (before ++ taken) r.read.2.source.unread) ∨
        r.MeetsFailure taken) := by
  have stands : (Reader.fresh source d p).Stands := Reader.stands_of_neverPauses hs rfl rfl
  have standing := stands.afterReads n
  have later := Reader.later_afterReads (Reader.fresh source d p) n
  rw [hr] at standing later
  obtain ⟨before, unread, consumed⟩ := later.takes
  obtain ⟨next, taken, unread', outcome⟩ := standing.read
  rw [later.delimiter, later.lineBreaks] at outcome
  have start : source.unread = before ++ taken ++ r.read.2.source.unread := by
    rw [List.append_assoc, ← unread']
    exact unread
  refine ⟨before, taken, start, consumed, (later.trans (Reader.later_read r)).consumed start, next.pending, ?_⟩
  exact outcome.imp (fun takes => ⟨takes, takes.beginsLine before⟩) id

/-- A failure within a quoted field, behind a failure within a line: the second read meets its failure with the quote
and the line feed taken, and keeps neither. -/
theorem read_ends_line_quoted :
    let source : Source := ⟨[.chunk [97], .failure "lost", .chunk [34, 10], .failure "again", .chunk [10]], 0⟩
    let r := (Reader.fresh source ',' .raw).afterReads 1
    source.NeverPauses ∧ source.unread = [97] ++ [34, 10] ++ r.read.2.source.unread ∧ r.MeetsFailure [34, 10] ∧
      r.read.1 = .error (.io "again") ∧ r.source.consumed = 1 ∧ r.read.2.source.consumed = 3 ∧
      r.read.2.pending = [] := by
  intro source r
  have never : source.NeverPauses := by decide
  have facesFirst : (Reader.fresh source ',' .raw).Faces [97] (.failure "lost")
      [.chunk [34, 10], .failure "again", .chunk [10]] := ⟨⟨[.chunk [97]], by decide, rfl, rfl⟩, rfl, rfl⟩
  have lost := facesFirst.read_fails (Scanner.openLine_ne_none (by decide))
  have faces : r.Faces [34, 10] (.failure "again") [.chunk [10]] :=
    ⟨⟨[.chunk [34, 10]], by decide, rfl, lost.events⟩, lost.pending, lost.exhausted⟩
  have within : (Scanner.start r.delimiter r.lineBreaks r.line).openLine [34, 10] ≠ none := by
    have delimiter : r.delimiter = ',' := lost.delimiter
    have lineBreaks : r.lineBreaks = .raw := lost.lineBreaks
    obtain ⟨s, run⟩ : ∃ s, (Scanner.start ',' .raw r.line).scan "\"\n".toList = .unfinished s := ⟨_, rfl⟩
    rw [delimiter, lineBreaks, Scanner.openLine_line (by decide) (show _ = Utf8.encode "\"\n".toList from rfl),
      run]
    exact Scanner.openLine_ne_none (by decide)
  have again := faces.read_fails within
  have meets : r.MeetsFailure [34, 10] := by
    refine ⟨[.chunk [34, 10]], "again", ?_, by decide, rfl, again.result⟩
    rw [again.events]
    exact lost.events
  have left₁ : r.source.unread = [34, 10, 10] := congrArg Source.Event.unread lost.events
  have left₂ : r.read.2.source.unread = [10] := congrArg Source.Event.unread again.events
  obtain ⟨before, taken, unread, -, one, -⟩ :=
    read_ends_line (d := ',') (p := .raw) (n := 0) (r := Reader.fresh source ',' .raw) never rfl
  rw [show (Reader.fresh source ',' .raw).read.2.source.unread = [34, 10, 10] from left₁] at unread
  have at1 : [97] = before ++ taken := List.append_cancel_right unread
  obtain ⟨before, taken, unread, -, three, pending, -⟩ :=
    read_ends_line (d := ',') (p := .raw) (n := 1) (r := r) never rfl
  rw [left₂] at unread
  have at3 : [97, 34, 10] = before ++ taken := List.append_cancel_right unread
  rw [← at1] at one
  rw [← at3] at three
  exact ⟨never, by rw [left₂]; rfl, meets, again.result, one, three, pending⟩

/-- Behind a failure within a line, what is left of the line is read as a record. -/
theorem record_within_line :
    let source : Source := ⟨[.chunk [97, 98], .failure "lost", .chunk [99, 100, 10]], 0⟩
    let r := (Reader.fresh source ',' .raw).afterReads 1
    source.NeverPauses ∧ source.unread = [97, 98] ++ r.source.unread ∧ r.source.unread ≠ [] ∧
      ¬ BeginsLine [97, 98] r.source.unread ∧ r.read.1 = .ok (some ["cd"]) := by
  intro source r
  have never : source.NeverPauses := by decide
  have faces : (Reader.fresh source ',' .raw).Faces [97, 98] (.failure "lost") [.chunk [99, 100, 10]] :=
    ⟨⟨[.chunk [97, 98]], by decide, rfl, rfl⟩, rfl, rfl⟩
  have fails := faces.read_fails (Scanner.openLine_ne_none (by decide))
  have events : r.source.events = [.chunk [99, 100, 10]] := fails.events
  have unread : r.source.unread = Utf8.encode "cd\n".toList := by
    rw [Source.unread, events]
    rfl
  have plain : r.source.IsPlain := by
    rw [Source.IsPlain, events]
    decide
  have rests : r.Rests r.source.unread := Reader.rests_of_not_exhausted plain fails.pending fails.exhausted
  have delimiter : r.delimiter = ',' := fails.delimiter
  have lineBreaks : r.lineBreaks = .raw := fails.lineBreaks
  have read := rests.read.result
  rw [delimiter, lineBreaks, unread, Scanner.readBytes_encode] at read
  rw [unread]
  refine ⟨never, by decide, by decide, ?_, read⟩
  rintro (he | ⟨content, terminator, he, ht⟩)
  · cases he
  · have last := congrArg List.getLast? he
    rcases ht with rfl | rfl | ⟨rfl, -⟩ <;> rw [List.getLast?_append_of_ne_nil _ (by simp)] at last <;> cases last

end DelimitedText
