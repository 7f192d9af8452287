import DelimitedText.Proofs.Calls
import DelimitedText.Proofs.Interruption
import DelimitedText.Proofs.Resume

/-!
# Reads up to a pause

A source may report the end of its input and then go on. A reader takes the report for the end if it has taken nothing
of a line (`Reader.Faces.readFrom_pause_nil`); then it reads as if the source ended there. If a line is open, the report
does no more than to end that line, and the record goes on behind it (`Reader.Faces.readFrom_pause`).

Two readers `Alongside` one another have the same bytes ahead, up to a pause for the one and to the end for the other.
Read after read they come to the same, and go on together, if no line is open in front of the pause
(`Reader.Abreast.afterReads`). Otherwise they part at one of the reads (`Reader.Alongside.exists_readsPast`), and what
follows is read off the bytes behind the pause.
-/

namespace DelimitedText

/-! ## Where a line is known to begin -/

/-- Whether no line is open behind these bytes: a line begins there, whatever follows. -/
def IsClosed (bytes : List UInt8) : Prop :=
  bytes = [] ∨ bytes.getLast? = some lineFeed

instance (bytes : List UInt8) : Decidable (IsClosed bytes) :=
  inferInstanceAs (Decidable (bytes = [] ∨ bytes.getLast? = some lineFeed))

theorem isClosed_append {bytes : List UInt8} (hb : bytes ≠ []) (before : List UInt8) :
    IsClosed (before ++ bytes) ↔ IsClosed bytes := by
  have some_ : before ++ bytes ≠ [] := List.append_ne_nil_of_right_ne_nil before hb
  simp only [IsClosed, some_, hb, false_or, List.getLast?_append_of_ne_nil before hb]

/-- Behind a settled line the bytes end as they do with the line. -/
theorem IsSettled.isClosed_behind {bytes : List UInt8} (h : IsSettled bytes) :
    IsClosed (cutLine bytes).2 ↔ IsClosed bytes := by
  have whole : (cutLine bytes).1 ++ (cutLine bytes).2 = bytes := firstLine_append lineFeed carriageReturn bytes
  by_cases hb : (cutLine bytes).2 = []
  · have last : (cutLine bytes).1.getLast? = some lineFeed := h.resolve_right (not_not_intro hb)
    rw [hb, List.append_nil] at whole
    rw [whole] at last
    exact iff_of_true (.inl hb) (.inr last)
  · conv => rhs; rw [← whole]
    exact (isClosed_append hb _).symm

/-- What settles nothing is open, if it is anything. -/
theorem isClosed_of_not_isSettled {bytes : List UInt8} (h : ¬ IsSettled bytes) : IsClosed bytes ↔ bytes = [] := by
  refine ⟨fun closed => closed.resolve_right fun last => h ?_, .inl⟩
  have whole : (cutLine bytes).1 ++ (cutLine bytes).2 = bytes := firstLine_append lineFeed carriageReturn bytes
  by_cases hb : (cutLine bytes).2 = []
  · rw [hb, List.append_nil] at whole
    exact .inl (by rwa [whole])
  · exact .inr hb

namespace Scanner

variable {s s' : Scanner} {bytes tail : List UInt8}

/-- Reading goes on at the line that is left open. -/
theorem readBytes_of_openLine (h : s.openLine bytes = some (s', tail)) : s.readBytes bytes = s'.readBytes tail := by
  fun_induction openLine s bytes with
  | case1 => cases h
  | case2 s bytes settled text ht s₁ hscan ih =>
    rw [readBytes_line settled.ne_nil (Utf8.decode_eq_ok_iff.1 ht), hscan]
    exact ih h
  | case3 => cases h
  | case4 => cases h; rfl

/-- In front of the line that is left open is text. -/
theorem exists_scan_of_openLine (h : s.openLine bytes = some (s', tail)) :
    ∃ text, bytes = Utf8.encode text ++ tail ∧ s.scan text = .unfinished s' := by
  fun_induction openLine s bytes with
  | case1 => cases h
  | case2 s bytes settled text ht s₁ hscan ih =>
    obtain ⟨-, whole⟩ := isLine_of_decode ht
    obtain ⟨text', cut, run⟩ := ih h
    refine ⟨text ++ text', ?_, (scan_append hscan text').trans run⟩
    rw [Utf8.encode_append, List.append_assoc, ← cut, whole]
  | case3 => cases h
  | case4 =>
    cases h
    exact ⟨[], rfl, rfl⟩

/-- The line that is left open is nothing iff the bytes leave none. -/
theorem isClosed_of_openLine (h : s.openLine bytes = some (s', tail)) : IsClosed bytes ↔ tail = [] := by
  fun_induction openLine s bytes with
  | case1 => cases h
  | case2 s bytes settled text ht s₁ hscan ih => exact settled.isClosed_behind.symm.trans (ih h)
  | case3 => cases h
  | case4 s bytes hopen =>
    cases h
    exact isClosed_of_not_isSettled hopen

/-- Where reading stops in front of the last line, bytes are taken, and those behind end as they did. -/
theorem behind_of_openLine_eq_none (h : s.openLine bytes = none) :
    (s.readBytes bytes).behind.length < bytes.length ∧ (IsClosed (s.readBytes bytes).behind ↔ IsClosed bytes) := by
  fun_induction openLine s bytes with
  | case1 s bytes settled fault hf =>
    rw [readBytes_fault settled.ne_nil hf]
    exact ⟨length_firstLine_behind settled.ne_nil, settled.isClosed_behind⟩
  | case2 s bytes settled text ht s' hscan ih =>
    obtain ⟨shorter, closed⟩ := ih h
    rw [readBytes_line settled.ne_nil (Utf8.decode_eq_ok_iff.1 ht), hscan]
    exact ⟨shorter.trans (length_firstLine_behind settled.ne_nil), closed.trans settled.isClosed_behind⟩
  | case3 s bytes settled text ht hn =>
    rw [readBytes_line settled.ne_nil (Utf8.decode_eq_ok_iff.1 ht)]
    cases hscan : s.scan text with
    | unfinished s' => exact absurd hscan (hn s')
    | record fields line rest => exact ⟨length_firstLine_behind settled.ne_nil, settled.isClosed_behind⟩
    | misplaced error line rest => exact ⟨length_firstLine_behind settled.ne_nil, settled.isClosed_behind⟩
  | case4 => cases h

end Scanner

/-! ## A pause -/

namespace Reader

variable {r r₀ : Reader} {s : Scanner} {bytes : List UInt8} {after : List Source.Event}

/-- What is taken of an open line is a line. -/
theorem Faces.takeLine_pause (h : r.Faces bytes .pause after) (hs : ¬ IsSettled bytes) :
    Source.takeLine r.source.events = ⟨bytes, none, after⟩ := by
  obtain ⟨before, plain, rfl, events⟩ := h.events
  rw [events, Source.takeLine_append_pause plain hs]

/-- **A pause where a line begins** is the end. -/
theorem Faces.readFrom_pause_nil (h : r.Faces [] .pause after) (hl : r.line = s.line) (first : Nat) :
    ∃ r', r.readFrom first s = (s.atEnd, r') ∧ r'.Ended ∧ r'.source.events = after ∧ r'.line = s.line := by
  have taken := h.takeLine_pause not_isSettled_nil
  refine ⟨{ r with source := r.source.behind ⟨[], none, after⟩, exhausted := true }, ?_, ⟨rfl, h.pending⟩, rfl, hl⟩
  have refilled : r.refill =
      (.ok false, { r with source := r.source.behind ⟨[], none, after⟩, exhausted := true }) := by
    simp only [refill, h.exhausted, Bool.false_eq_true, if_false, taken, List.isEmpty_nil, if_true]
  rw [readFrom_of_pending_nil h.pending hl, refilled]

/-- **A pause within a line** ends no more than the line: the reader goes on behind it. -/
theorem Faces.readFrom_pause (h : r.Faces bytes .pause after) (hl : r.line = s.line) (hs : ¬ IsSettled bytes)
    (hb : bytes ≠ []) (first : Nat) : ∃ r' : Reader, r'.source.events = after ∧ r'.pending = [] ∧ r'.exhausted = false ∧
      r'.line = s.line ∧ r'.delimiter = r.delimiter ∧ r'.lineBreaks = r.lineBreaks ∧
      r.readFrom first s = match Utf8.decode bytes with
        | .ok text => ({ r' with pending := text } : Reader).readFrom first s
        | .error fault => (.error (.io fault.message), r') := by
  have taken := h.takeLine_pause hs
  refine ⟨{ r with source := r.source.behind (Source.takeLine r.source.events) }, by rw [taken]; rfl, h.pending,
    h.exhausted, hl, rfl, rfl, ?_⟩
  rw [readFrom_of_pending_nil h.pending hl,
    refill_of_takeLine h.exhausted (by rw [taken]) (by rw [taken]) hb]
  cases Utf8.decode bytes with
  | ok text => rfl
  | error fault => rfl

/-- The next read takes a line that is open in front of a pause, and goes on behind the pause. -/
def ReadsPast (r : Reader) (after : List Source.Event) : Prop :=
  ∃ text tail s, r.source.unread = Utf8.encode text ++ tail ++ Source.Event.unread after ∧ tail ≠ [] ∧
    (Scanner.start r.delimiter r.lineBreaks r.line).scan text = .unfinished s ∧
    ∃ r' : Reader, r'.source.events = after ∧ r'.pending = [] ∧ r'.exhausted = false ∧ r'.line = s.line ∧
      r'.delimiter = r.delimiter ∧ r'.lineBreaks = r.lineBreaks ∧
      r.read = match Utf8.decode tail with
        | .ok more => ({ r' with pending := more } : Reader).readFrom r.line s
        | .error fault => (.error (.io fault.message), r')

/-- What it leaves is what stands behind the pause, or the last of it. -/
theorem ReadsPast.exists_taken (h : r.ReadsPast after) :
    ∃ taken, Source.Event.unread after = taken ++ r.read.2.source.unread := by
  obtain ⟨text, tail, s, -, -, -, r', events, -, -, line, -, -, read⟩ := h
  have behind : r'.source.unread = Source.Event.unread after := by rw [Source.unread, events]
  rw [← behind, read]
  cases Utf8.decode tail with
  | ok more =>
    obtain ⟨taken, unread, -⟩ := (later_readFrom { r' with pending := more } r.line s line).takes
    exact ⟨taken, unread⟩
  | error fault => exact ⟨[], rfl⟩

/-! ## The end instead of a pause -/

/-- `r` has `bytes` ahead and then a pause; `r₀` has the same bytes ahead and then the end. -/
structure Alongside (r r₀ : Reader) (bytes : List UInt8) (after : List Source.Event) : Prop where
  faces : r.Faces bytes .pause after
  rests : r₀.Rests bytes
  line : r.line = r₀.line
  delimiter : r.delimiter = r₀.delimiter
  lineBreaks : r.lineBreaks = r₀.lineBreaks

/-- Where a read stops in front of the last line, it comes to the same, and so do the next reads. -/
theorem Alongside.read (h : r.Alongside r₀ bytes after)
    (ho : (Scanner.start r.delimiter r.lineBreaks r.line).openLine bytes = none) : r.read.1 = r₀.read.1 ∧
      r.read.2.Alongside r₀.read.2
        ((Scanner.start r.delimiter r.lineBreaks r.line).readBytes bytes).behind after := by
  have mine := h.faces.read ho
  have other := h.rests.read
  rw [← h.line, ← h.delimiter, ← h.lineBreaks] at other
  refine ⟨mine.result.trans other.result.symm, mine.faces, other.rests, mine.line.trans other.line.symm, ?_, ?_⟩
  · exact mine.delimiter.trans (h.delimiter.trans other.delimiter.symm)
  · exact mine.lineBreaks.trans (h.lineBreaks.trans other.lineBreaks.symm)

/-- Two readers with no line open in front of the pause, or with the pause and the end behind them. -/
inductive Abreast (r r₀ : Reader) (after : List Source.Event) : Prop where
  | ahead {bytes : List UInt8} (alongside : r.Alongside r₀ bytes after) (closed : IsClosed bytes)
  | ended (ended : r.Ended) (rests : r₀.Rests []) (events : r.source.events = after) (line : r.line = r₀.line)

/-- The readers are on the same line, and have the same bytes ahead but for those behind the pause. -/
theorem Abreast.same (h : r.Abreast r₀ after) :
    r.line = r₀.line ∧ r.source.unread = r₀.source.unread ++ Source.Event.unread after := by
  cases h with
  | ahead alongside closed =>
    refine ⟨alongside.line, ?_⟩
    rw [alongside.rests.unread]
    exact alongside.faces.unread
  | ended ended rests events line =>
    refine ⟨line, ?_⟩
    rw [rests.unread, Source.unread, events]
    rfl

/-- **One read** of both comes to the same. -/
theorem Abreast.read (h : r.Abreast r₀ after) : r.read.1 = r₀.read.1 ∧ r.read.2.Abreast r₀.read.2 after := by
  cases h with
  | ended ended rests events line =>
    have other := rests.read
    rw [Scanner.readBytes_nil] at other
    rw [ended.read]
    exact ⟨other.result.symm, .ended ended other.rests events (line.trans other.line.symm)⟩
  | @ahead bytes alongside closed =>
    cases ho : (Scanner.start r.delimiter r.lineBreaks r.line).openLine bytes with
    | none =>
      obtain ⟨same, next⟩ := alongside.read ho
      exact ⟨same, .ahead next ((Scanner.behind_of_openLine_eq_none ho).2.2 closed)⟩
    | some found =>
      obtain ⟨s, tail⟩ := found
      obtain rfl := (Scanner.isClosed_of_openLine ho).1 closed
      obtain ⟨r', faces, line, -, -, read⟩ := alongside.faces.readFrom_of_openLine_eq_some rfl ho r.line
      obtain ⟨r'', read', ended, events, line'⟩ := faces.readFrom_pause_nil line r.line
      have mine : r.read = (s.atEnd, r'') := read.trans read'
      have other := alongside.rests.read
      rw [← alongside.line, ← alongside.delimiter, ← alongside.lineBreaks,
        Scanner.readBytes_of_openLine ho, Scanner.readBytes_nil] at other
      rw [mine]
      exact ⟨other.result.symm, .ended ended other.rests events (line'.trans other.line.symm)⟩

/-- **Any number of reads.** -/
theorem Abreast.afterReads (h : r.Abreast r₀ after) (n : Nat) : (r.afterReads n).Abreast (r₀.afterReads n) after := by
  induction n generalizing r r₀ with
  | zero => exact h
  | succ n ih => exact ih h.read.2

/-- **An open line** in front of the pause is read up to at some time, and the pause is passed. -/
theorem Alongside.exists_readsPast (h : r.Alongside r₀ bytes after) (ho : ¬ IsClosed bytes) :
    ∃ n, (∀ k < n, (r.afterReads k).read.1 = (r₀.afterReads k).read.1) ∧ (r.afterReads n).ReadsPast after := by
  induction hlen : bytes.length using Nat.strongRecOn generalizing r r₀ bytes with
  | _ length ih =>
    cases found : (Scanner.start r.delimiter r.lineBreaks r.line).openLine bytes with
    | none =>
      obtain ⟨same, next⟩ := h.read found
      obtain ⟨shorter, closed⟩ := Scanner.behind_of_openLine_eq_none found
      obtain ⟨n, reads, past⟩ := ih _ (hlen ▸ shorter) next (fun he => ho (closed.1 he)) rfl
      refine ⟨n + 1, fun k hk => ?_, past⟩
      cases k with
      | zero => exact same
      | succ k => exact reads k (Nat.lt_of_succ_lt_succ hk)
    | some opened =>
      obtain ⟨s, tail⟩ := opened
      obtain ⟨text, cut, run⟩ := Scanner.exists_scan_of_openLine found
      have some_ : tail ≠ [] := fun he => ho ((Scanner.isClosed_of_openLine found).2 he)
      obtain ⟨r', faces, line, hd, hp, read⟩ := h.faces.readFrom_of_openLine_eq_some rfl found r.line
      obtain ⟨r'', events, pending, exhausted, line', hd', hp', read'⟩ :=
        faces.readFrom_pause line (Scanner.not_isSettled_of_openLine found) some_ r.line
      refine ⟨0, fun k hk => absurd hk (Nat.not_lt_zero k), text, tail, s, ?_, some_, run, r'', events, pending,
        exhausted, line', hd'.trans hd, hp'.trans hp, read.trans read'⟩
      rw [← cut]
      exact h.faces.unread

end Reader

/-- **Up to a pause.** Where the source reports its end behind a line feed, or before any byte, a reader reads as if the
source ended there, for good. Where it reports its end within a line, or behind a carriage return, the reader reads so
only up to the record with that line, and goes on behind the report: that record takes some of the bytes behind it, and
the reads behind the record are those of a new reader over the rest, unless there it found the end. -/
theorem reads_up_to_pause {source : Source} {before after : List Source.Event}
    (hs : source.events = before ++ .pause :: after) (hb : ∀ event ∈ before, event.isChunk = true) (d : Char)
    (p : LineBreaks) :
    let r := Reader.fresh source d p
    let r₀ := Reader.fresh ⟨before, source.consumed⟩ d p
    (IsClosed (Source.Event.unread before) → ∀ n, (r.afterReads n).read.1 = (r₀.afterReads n).read.1 ∧
      (r.afterReads n).line = (r₀.afterReads n).line ∧
      (r.afterReads n).source.consumed = (r₀.afterReads n).source.consumed) ∧
    (¬ IsClosed (Source.Event.unread before) → ∃ n, (∀ k < n, (r.afterReads k).read.1 = (r₀.afterReads k).read.1) ∧
      (r.afterReads n).ReadsPast after ∧
      (∃ taken, Source.Event.unread after = taken ++ (r.afterReads (n + 1)).source.unread) ∧
      (r.afterReads (n + 1)).GoesOn d p) := by
  intro r r₀
  have alongside : r.Alongside r₀ (Source.Event.unread before) after :=
    ⟨⟨⟨before, hb, rfl, hs⟩, rfl, rfl⟩, Reader.rests_fresh (show Source.IsPlain ⟨before, _⟩ from hb) d p, rfl, rfl, rfl⟩
  refine ⟨fun closed n => ?_, fun opened => ?_⟩
  · have abreast : r.Abreast r₀ after := .ahead alongside closed
    have later := abreast.afterReads n
    refine ⟨later.read.1, later.same.1, ?_⟩
    obtain ⟨taken, unread, consumed⟩ := (Reader.later_afterReads r₀ n).takes
    rw [consumed]
    apply (Reader.later_afterReads r n).consumed
    rw [abreast.same.2, later.same.2, unread, List.append_assoc]
  · obtain ⟨n, same, past⟩ := alongside.exists_readsPast opened
    refine ⟨n, same, past, ?_, Reader.goesOn_afterReads source d p (n + 1)⟩
    rw [Reader.afterReads_succ]
    exact past.exists_taken

/-- Behind a line feed within quotes the report is the end, and what the source has behind it does not matter. -/
theorem reads_up_to_pause_quoted :
    let before : List Source.Event := [.chunk [97, 10, 34], .chunk [98, 13, 10], .chunk []]
    let r := Reader.fresh ⟨before ++ .pause :: [.chunk [34, 10], .pause, .chunk [255]], 0⟩ ',' .raw
    ((∀ event ∈ before, event.isChunk = true) ∧ IsClosed (Source.Event.unread before)) ∧
      ∀ n, (r.afterReads n).read.1 = ((Reader.fresh ⟨before, 0⟩ ',' .raw).afterReads n).read.1 := by
  intro before r
  have chunks : ∀ event ∈ before, event.isChunk = true := by decide
  have closed : IsClosed (Source.Event.unread before) := by decide
  have events : r.source.events = before ++ .pause :: [.chunk [34, 10], .pause, .chunk [255]] := rfl
  refine ⟨⟨chunks, closed⟩, fun n => ?_⟩
  exact ((reads_up_to_pause events chunks ',' .raw).1 closed n).1

/-- A record goes on with the bytes that the source delivers behind its reported end. -/
theorem record_past_pause :
    let source : Source := ⟨[.chunk [97, 98], .pause, .chunk [99, 100, 10]], 0⟩
    (Reader.fresh source ',' .raw).read.1 = .ok (some ["abcd"]) ∧
      (Reader.fresh ⟨[.chunk [97, 98]], 0⟩ ',' .raw).read.1 = .ok (some ["ab"]) := by
  intro source
  have ends : (Reader.fresh ⟨[.chunk [97, 98]], 0⟩ ',' .raw).Rests (Utf8.encode "ab".toList) :=
    Reader.rests_fresh (by decide) ',' .raw
  have ended := ends.read.result
  rw [Scanner.readBytes_encode] at ended
  refine ⟨?_, ended⟩
  have faces : (Reader.fresh source ',' .raw).Faces [97, 98] .pause [.chunk [99, 100, 10]] :=
    ⟨⟨[.chunk [97, 98]], by decide, rfl, rfl⟩, rfl, rfl⟩
  obtain ⟨r', events, -, exhausted, line, -, -, read⟩ :=
    faces.readFrom_pause (s := Scanner.start ',' .raw 1) rfl (by decide) (by decide) 1
  have text : Utf8.decode [97, 98] = .ok "ab".toList := Utf8.decode_eq_ok_iff.2 rfl
  obtain ⟨s, run⟩ : ∃ s, (Scanner.start ',' .raw 1).scan "ab".toList = .unfinished s := ⟨_, rfl⟩
  have unread : r'.source.unread = Utf8.encode "cd\n".toList := by
    rw [Source.unread, events]
    rfl
  have plain : r'.source.IsPlain := by
    rw [Source.IsPlain, events]
    decide
  have rests : (Reader.scanned { r' with pending := "ab".toList } (Scanner.start ',' .raw 1) s).Rests
      r'.source.unread := Reader.rests_of_not_exhausted plain rfl exhausted
  have scan : s.scan "cd\n".toList = .record ["abcd"] 1 [] := (Scanner.scan_append run _).symm.trans (by decide)
  rw [text] at read
  have goes := read.trans (Reader.readFrom_scanned run)
  have result := (rests.readFrom (s := s) rfl 1).result
  rw [← goes, unread, Scanner.readBytes_encode, scan] at result
  exact result

end DelimitedText
