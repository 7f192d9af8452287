import DelimitedText.Proofs.Reading

/-!
# Chunks do not matter

A source cuts its bytes into chunks wherever it likes: within a character, between a carriage return and its line feed,
or in front of a line break. Two readers that differ at most in these cuts (`Reader.SameButChunks`) take the same
physical line (`SameButChunks.refill`), so that a read gives both the same result and leaves them so
(`sameOutcome_readFrom`); hence any number of reads does (`reads_of_same_bytes`). No assumption is made on the bytes,
which need not be a text.
-/

namespace DelimitedText

/-! ## Sources -/

namespace Source

/-- Two sources that deliver the same bytes and have delivered as many, in chunks of their own. -/
structure SameBytes (a b : Source) : Prop where
  left : a.IsPlain
  right : b.IsPlain
  unread : a.unread = b.unread
  consumed : a.consumed = b.consumed

/-- The next physical line is the same, and so is what is behind it. -/
theorem SameBytes.takeLine {a b : Source} (h : a.SameBytes b) :
    (takeLine b.events).failure = (takeLine a.events).failure ∧
    (takeLine b.events).bytes = (takeLine a.events).bytes ∧
    (a.behind (takeLine a.events)).SameBytes (b.behind (takeLine b.events)) := by
  have first := takeLine_of_plain h.left
  have second := takeLine_of_plain h.right
  rw [show Event.unread b.events = Event.unread a.events from h.unread.symm] at second
  have bytes : (Source.takeLine b.events).bytes = (Source.takeLine a.events).bytes :=
    second.bytes.trans first.bytes.symm
  refine ⟨second.failure.trans first.failure.symm, bytes, first.plain, second.plain, ?_, ?_⟩
  · exact first.behind.trans second.behind.symm
  · show a.consumed + _ = b.consumed + _
    rw [h.consumed, bytes]

end Source

/-! ## Two readers -/

namespace Reader

/-- Two readers that differ at most in the chunks that their sources deliver. -/
def SameButChunks (r r' : Reader) : Prop :=
  ∃ source, r.source.SameBytes source ∧ r' = { r with source }

/-- The same result, and readers that differ at most in chunks. -/
structure SameOutcome {α : Type} (given given' : α × Reader) : Prop where
  result : given'.1 = given.1
  reader : SameButChunks given.2 given'.2

theorem SameOutcome.exists_eq {α : Type} {given given' : α × Reader} {result : α} {r : Reader}
    (h : SameOutcome given given') (he : given = (result, r)) : ∃ r', given' = (result, r') ∧ SameButChunks r r' := by
  subst he
  exact ⟨given'.2, Prod.ext h.result rfl, h.reader⟩

variable {r r' : Reader}

theorem SameButChunks.scanned (h : SameButChunks r r') (s s' : Scanner) :
    SameButChunks (r.scanned s s') (r'.scanned s s') := by
  obtain ⟨source, hs, rfl⟩ := h
  exact ⟨source, hs, rfl⟩

/-- **One physical line.** Both take the same, or meet the same end or the same fault. -/
theorem SameButChunks.refill (h : SameButChunks r r') : SameOutcome r.refill r'.refill := by
  obtain ⟨source, hs, rfl⟩ := h
  obtain ⟨failure, bytes, behind⟩ := hs.takeLine
  unfold Reader.refill
  dsimp only
  rw [failure, bytes]
  split
  · exact ⟨rfl, source, hs, rfl⟩
  split
  · exact ⟨rfl, _, behind, rfl⟩
  split
  · exact ⟨rfl, _, behind, rfl⟩
  split
  · exact ⟨rfl, _, behind, rfl⟩
  · exact ⟨rfl, _, behind, rfl⟩

/-- The other reader scans the same pending text, and so asks for its next line in the same state. -/
theorem SameButChunks.readFrom_of_unfinished (h : SameButChunks r r') {first : Nat} {s s' : Scanner} {r₁ : Reader}
    {result : Except Error Bool} (hs : s.scan r.pending = .unfinished s')
    (hr : (r.scanned s s').refill = (result, r₁)) :
    ∃ r₂, SameButChunks r₁ r₂ ∧ r'.readFrom first s = match (result, r₂) with
      | (.error error, r) => (.error error, r)
      | (.ok true, r) => r.readFrom first s'
      | (.ok false, r) => (s'.atEnd, r) := by
  obtain ⟨r₂, hr₂, same⟩ := (h.scanned s s').refill.exists_eq hr
  obtain ⟨source, -, rfl⟩ := h
  have read : ({ r with source } : Reader).readFrom first s = _ := Reader.readFrom_of_unfinished hs
  rw [hr₂] at read
  exact ⟨r₂, same, read⟩

/-- **One read.** The result is the same, however the bytes are cut. -/
theorem sameOutcome_readFrom (r : Reader) (first : Nat) (s : Scanner) :
    ∀ {r' : Reader}, SameButChunks r r' → SameOutcome (r.readFrom first s) (r'.readFrom first s) := by
  fun_induction readFrom r first s
  case case1 hs spanned =>
    rintro r' ⟨source, same, rfl⟩
    rw [Reader.readFrom]
    simp only [hs]
    exact ⟨rfl, source, same, rfl⟩
  case case2 hs =>
    rintro r' ⟨source, same, rfl⟩
    rw [Reader.readFrom]
    simp only [hs]
    exact ⟨rfl, source, same, rfl⟩
  case case3 hs error r₁ hr =>
    intro r' h
    obtain ⟨r₂, same, read⟩ := h.readFrom_of_unfinished hs hr
    rw [read]
    exact ⟨rfl, same⟩
  case case4 hs r₁ hr ih =>
    intro r' h
    obtain ⟨r₂, same, read⟩ := h.readFrom_of_unfinished hs hr
    rw [read]
    exact ih same
  case case5 hs r₁ hr hq =>
    intro r' h
    obtain ⟨r₂, same, read⟩ := h.readFrom_of_unfinished hs hr
    rw [read]
    exact ⟨by simp only [Scanner.atEnd, hq, if_true], same⟩
  case case6 hs r₁ hr hq =>
    intro r' h
    obtain ⟨r₂, same, read⟩ := h.readFrom_of_unfinished hs hr
    rw [read]
    exact ⟨by simp only [Scanner.atEnd, hq, if_false, Bool.false_eq_true], same⟩

theorem SameButChunks.read (h : SameButChunks r r') : SameOutcome r.read r'.read := by
  have same := sameOutcome_readFrom r r.line (Scanner.start r.delimiter r.lineBreaks r.line) h
  obtain ⟨source, -, rfl⟩ := h
  exact same

/-- **Any number of reads**, whatever came of them. -/
theorem SameButChunks.afterReads (h : SameButChunks r r') (n : Nat) :
    SameButChunks (r.afterReads n) (r'.afterReads n) := by
  induction n generalizing r r' with
  | zero => exact h
  | succ n ih => exact ih h.read.reader

end Reader

/-- **Chunks do not matter.** Of two fresh readers with the same conventions over the same bytes, whatever the chunks,
every read gives the same result, and behind any number of reads both are on the same line, have consumed as many bytes
and have reported the same. -/
theorem reads_of_same_bytes {a b : Source} (ha : a.IsPlain) (hb : b.IsPlain) (hu : a.unread = b.unread)
    (hc : a.consumed = b.consumed) (d : Char) (p : LineBreaks) (n : Nat) :
    ((Reader.fresh a d p).afterReads n).read.1 = ((Reader.fresh b d p).afterReads n).read.1 ∧
    ((Reader.fresh a d p).afterReads n).line = ((Reader.fresh b d p).afterReads n).line ∧
    ((Reader.fresh a d p).afterReads n).source.consumed = ((Reader.fresh b d p).afterReads n).source.consumed ∧
    ((Reader.fresh a d p).afterReads n).journal = ((Reader.fresh b d p).afterReads n).journal := by
  have same : Reader.SameButChunks (Reader.fresh a d p) (Reader.fresh b d p) := ⟨b, ⟨ha, hb, hu, hc⟩, rfl⟩
  have later := same.afterReads n
  have next := later.read.result.symm
  obtain ⟨source, hs, he⟩ := later
  refine ⟨next, ?_, ?_, ?_⟩
  · rw [he]
  · rw [he, hs.consumed]
  · rw [he]

/-- Cuts between a carriage return and its line feed, within a quoted field and within a character, and bytes that are
no text on the second line. -/
theorem reads_of_same_bytes_cut :
    let a : Source := ⟨[.chunk [97, 44, 34, 13], .chunk [10, 195], .chunk [164, 34, 13], .chunk [10, 255, 10]], 0⟩
    let b : Source := ⟨[.chunk [97, 44, 34, 13, 10, 195, 164, 34, 13, 10, 255, 10]], 0⟩
    (a.IsPlain ∧ b.IsPlain ∧ a.unread = b.unread ∧ a.consumed = b.consumed) ∧
      ∀ n, ((Reader.fresh a ',' .raw).afterReads n).read.1 = ((Reader.fresh b ',' .raw).afterReads n).read.1 := by
  intro a b
  have plain : a.IsPlain ∧ b.IsPlain := by decide
  have unread : a.unread = b.unread := by decide
  exact ⟨⟨plain.1, plain.2, unread, rfl⟩, fun n => (reads_of_same_bytes plain.1 plain.2 unread rfl ',' .raw n).1⟩

end DelimitedText
