import DelimitedText.Proofs.Reading
import Mathlib.Data.List.Basic

/-!
# Lines in front of an interruption

A source may deliver some chunks and then fail or pause. Where the bytes of the chunks settle the end of their first
line (`IsSettled`), the line is taken as if nothing else followed (`Source.takeLine_append_of_settled`). Where they do
not, all of them are taken, and what follows is asked for the rest of the line (`Source.takeLine_append_of_open`).

So a reader that `Faces` an interruption reads the bytes in front of it as those of a plain source, unless it comes to a
line that they leave open (`Scanner.openLine`, `Reader.Faces.readFrom_of_openLine_eq_none`). What becomes of that line
is another matter (`Reader.Faces.readFrom_of_openLine_eq_some`): with a failure it is lost, and the read fails
(`Reader.Faces.fails`).
-/

namespace DelimitedText

/-! ## Where a line is known to end -/

/-- Whether these bytes settle where their first line ends. A line without a line feed at its end may go on behind the
last of the bytes, and be it with the line feed alone. -/
def IsSettled (bytes : List UInt8) : Prop :=
  (cutLine bytes).1.getLast? = some lineFeed ∨ (cutLine bytes).2 ≠ []

instance (bytes : List UInt8) : Decidable (IsSettled bytes) :=
  inferInstanceAs (Decidable ((cutLine bytes).1.getLast? = some lineFeed ∨ (cutLine bytes).2 ≠ []))

theorem not_isSettled_nil : ¬ IsSettled [] := by decide

theorem IsSettled.ne_nil {bytes : List UInt8} (h : IsSettled bytes) : bytes ≠ [] := by
  rintro rfl
  exact not_isSettled_nil h

/-- Bytes within a line settle nothing. -/
theorem isSettled_unbroken_append {content more : List UInt8} (h : IsUnbroken lineFeed carriageReturn content) :
    IsSettled (content ++ more) ↔ IsSettled more := by
  unfold IsSettled cutLine
  rw [firstLine_unbroken_append h]
  by_cases hm : more = []
  · subst hm
    have inside : content.getLast? ≠ some lineFeed := fun hl => (h _ (List.mem_of_getLast? hl)).1 rfl
    simp [firstLine, inside]
  · rw [List.getLast?_append_of_ne_nil _ (firstLine_ne_nil hm)]

theorem isSettled_lineFeed (more : List UInt8) : IsSettled (lineFeed :: more) := by
  simp [IsSettled, cutLine, firstLine]

/-- A carriage return waits for the next byte, which may be its line feed. -/
theorem isSettled_carriageReturn {more : List UInt8} : IsSettled (carriageReturn :: more) ↔ more ≠ [] := by
  have other : carriageReturn ≠ lineFeed := by decide
  cases more with
  | nil => simp [IsSettled, cutLine, firstLine, other]
  | cons b more =>
    by_cases hb : b = lineFeed <;> simp [IsSettled, cutLine, firstLine, other, hb]

/-- A settled line ends where it does, whatever stands behind the bytes. -/
theorem IsSettled.cutLine_append {bytes : List UInt8} (h : IsSettled bytes) (more : List UInt8) :
    cutLine (bytes ++ more) = ((cutLine bytes).1, (cutLine bytes).2 ++ more) := by
  obtain ⟨content, terminator, cut, unbroken, ends⟩ := isLine_firstLine lineFeed carriageReturn bytes
  have whole := firstLine_append lineFeed carriageReturn bytes
  refine (firstLine_eq_iff (by decide)).2 ⟨?_, content, terminator, cut, unbroken, .inl ?_⟩
  · rw [← List.append_assoc, whole]
  rcases ends with (ht | ht | ⟨ht, hn⟩) | ⟨rfl, nothing⟩
  · exact .inl ht
  · exact .inr (.inl ht)
  · -- behind a carriage return alone there is a byte, which stays the next
    have some_ : (firstLine lineFeed carriageReturn bytes).2 ≠ [] := by
      rcases h with hl | hb
      · rw [cut, ht, List.getLast?_append_of_ne_nil _ (by simp)] at hl
        cases hl
      · exact hb
    exact .inr (.inr ⟨ht, by rwa [List.head?_append_of_ne_nil _ some_]⟩)
  · rcases h with hl | hb
    · rw [cut, List.append_nil] at hl
      exact absurd rfl (unbroken _ (List.mem_of_getLast? hl)).1
    · exact absurd nothing hb

namespace Source

theorem Event.unread_append (before after : List Event) :
    unread (before ++ after) = unread before ++ unread after := by
  fun_induction unread before with
  | case1 => rfl
  | case2 bytes rest ih => rw [List.cons_append, unread, ih, List.append_assoc]
  | case3 event rest hn ih =>
    cases event with
    | chunk bytes => exact absurd rfl (hn bytes)
    | failure message => exact ih
    | pause => exact ih

/-- What is taken from events, if others stand behind these. -/
def Taken.followedBy (t : Taken) (after : List Event) : Taken :=
  { t with rest := t.rest ++ after }

variable {before : List Event}

theorem takeLineFeed_append (h : ∀ event ∈ before, event.isChunk = true) (hb : Event.unread before ≠ [])
    (after : List Event) : takeLineFeed (before ++ after) = (takeLineFeed before).followedBy after := by
  fun_induction takeLineFeed before with
  | case1 => exact absurd rfl hb
  | case2 => cases h _ List.mem_cons_self
  | case3 => cases h _ List.mem_cons_self
  | case4 rest ih => exact ih (fun event he => h event (List.mem_cons_of_mem _ he)) hb
  | case5 bytes rest => rfl
  | case6 b bytes rest hne =>
    rw [List.cons_append, takeLineFeed, if_neg hne]
    rfl

/-- Chunks without a byte have no part in it. -/
theorem takeLineFeed_append_of_unread_eq_nil (h : ∀ event ∈ before, event.isChunk = true)
    (hb : Event.unread before = []) (after : List Event) : takeLineFeed (before ++ after) = takeLineFeed after := by
  induction before, h using chunk_induction with
  | nil => rfl
  | chunk bytes rest _ ih =>
    obtain ⟨rfl, nothing⟩ := List.append_eq_nil_iff.1 hb
    exact ih nothing

theorem Taken.prepend_prepend (a b : List UInt8) (t : Taken) : (t.prepend b).prepend a = t.prepend (a ++ b) := by
  simp [Taken.prepend]

/-- **A settled line** is taken as if nothing stood behind the chunks. -/
theorem takeLine_append_of_settled (h : ∀ event ∈ before, event.isChunk = true)
    (hs : IsSettled (Event.unread before)) (after : List Event) :
    takeLine (before ++ after) = (takeLine before).followedBy after := by
  induction before, h using chunk_induction with
  | nil => exact absurd hs not_isSettled_nil
  | chunk bytes rest hrest ih =>
    rw [Event.unread] at hs
    obtain ⟨within, taken⟩ | ⟨content, behind, hc, ⟨rfl, taken⟩ | ⟨rfl, taken⟩⟩ := takeLine_chunk bytes
    · rw [List.cons_append, taken, taken, ih ((isSettled_unbroken_append within).1 hs)]
      rfl
    · rw [List.cons_append, taken, taken]
      rfl
    · -- the byte that decides is in the chunks, so the look behind the carriage return stays within them
      rw [List.append_assoc, isSettled_unbroken_append hc, List.cons_append, isSettled_carriageReturn] at hs
      have next : ∀ event ∈ Event.chunk behind :: rest, event.isChunk = true :=
        List.forall_mem_cons.2 ⟨rfl, hrest⟩
      have looked := takeLineFeed_append next hs after
      rw [List.cons_append] at looked
      rw [List.cons_append, taken, taken, looked]
      rfl

/-- **An open line** takes all bytes of the chunks, and what stands behind them is asked for the rest of the line, or
for a line feed alone. -/
theorem takeLine_append_of_open (h : ∀ event ∈ before, event.isChunk = true)
    (hs : ¬ IsSettled (Event.unread before)) (after : List Event) :
    takeLine (before ++ after) = (takeLine after).prepend (Event.unread before) ∨
      takeLine (before ++ after) = (takeLineFeed after).prepend (Event.unread before) := by
  induction before, h using chunk_induction with
  | nil => exact .inl rfl
  | chunk bytes rest hrest ih =>
    rw [Event.unread] at hs
    rw [List.cons_append, Event.unread]
    obtain ⟨within, taken⟩ | ⟨content, behind, hc, ⟨rfl, taken⟩ | ⟨rfl, taken⟩⟩ := takeLine_chunk bytes
    · rw [isSettled_unbroken_append within] at hs
      rw [taken]
      refine (ih hs).imp ?_ ?_ <;> intro more <;> rw [more, Taken.prepend_prepend]
    · rw [List.append_assoc, isSettled_unbroken_append hc] at hs
      exact absurd (isSettled_lineFeed _) hs
    · rw [List.append_assoc, isSettled_unbroken_append hc, List.cons_append, isSettled_carriageReturn,
        not_not] at hs
      have next : ∀ event ∈ Event.chunk behind :: rest, event.isChunk = true :=
        List.forall_mem_cons.2 ⟨rfl, hrest⟩
      have nothing := takeLineFeed_append_of_unread_eq_nil next hs after
      obtain ⟨rfl, more⟩ := List.append_eq_nil_iff.1 hs
      refine .inr ?_
      rw [taken, ← List.cons_append, nothing, more, List.append_nil]

/-- Behind an open line a failure cuts the line short. -/
theorem takeLine_append_failure (h : ∀ event ∈ before, event.isChunk = true)
    (hs : ¬ IsSettled (Event.unread before)) (message : String) (after : List Event) :
    takeLine (before ++ .failure message :: after) = ⟨Event.unread before, some message, after⟩ := by
  rcases takeLine_append_of_open h hs (.failure message :: after) with more | more <;> rw [more] <;>
    simp [takeLine, takeLineFeed, Taken.prepend]

/-- Behind an open line a pause ends the line. -/
theorem takeLine_append_pause (h : ∀ event ∈ before, event.isChunk = true)
    (hs : ¬ IsSettled (Event.unread before)) (after : List Event) :
    takeLine (before ++ .pause :: after) = ⟨Event.unread before, none, after⟩ := by
  rcases takeLine_append_of_open h hs (.pause :: after) with more | more <;> rw [more] <;>
    simp [takeLine, takeLineFeed, Taken.prepend]

end Source

/-! ## Readings in front of an interruption -/

namespace Scanner

variable {s s' : Scanner} {bytes tail : List UInt8}

/-- The line that these bytes leave open, and the state in which reading on from `s` comes to it; `none` if it stops in
front of that line. -/
def openLine (s : Scanner) (bytes : List UInt8) : Option (Scanner × List UInt8) :=
  if _h : IsSettled bytes then
    match Utf8.decode (cutLine bytes).1 with
    | .error _ => none
    | .ok text =>
      match s.scan text with
      | .unfinished s => s.openLine (cutLine bytes).2
      | _ => none
  else some (s, bytes)
  termination_by bytes.length
  decreasing_by exact length_firstLine_behind _h.ne_nil

theorem openLine_of_not_isSettled (h : ¬ IsSettled bytes) : s.openLine bytes = some (s, bytes) := by
  rw [openLine, dif_neg h]

theorem openLine_ne_none (h : ¬ IsSettled bytes) : s.openLine bytes ≠ none := by
  rw [openLine_of_not_isSettled h]
  exact Option.some_ne_none _

/-- Whether reading stops at a settled line is a matter of scanning its text. -/
theorem openLine_line {text : List Char} (hs : IsSettled bytes) (h : (cutLine bytes).1 = Utf8.encode text) :
    s.openLine bytes = match s.scan text with
      | .unfinished s => s.openLine (cutLine bytes).2
      | _ => none := by
  rw [openLine, dif_pos hs, Utf8.decode_eq_ok_iff.2 h]

/-- What is left open is not settled. -/
theorem not_isSettled_of_openLine (h : s.openLine bytes = some (s', tail)) : ¬ IsSettled tail := by
  fun_induction openLine s bytes with
  | case1 => cases h
  | case2 s bytes settled text ht s₁ hscan ih => exact ih h
  | case3 => cases h
  | case4 s bytes hopen =>
    cases h
    exact hopen

/-- Where reading stops within some bytes, others behind them are left as they are. -/
theorem readBytes_append_of_openLine_eq_none (h : s.openLine bytes = none) (more : List UInt8) :
    s.readBytes (bytes ++ more) =
      { s.readBytes bytes with behind := (s.readBytes bytes).behind ++ more } := by
  have ahead : ∀ {bytes : List UInt8}, IsSettled bytes → bytes ++ more ≠ [] := fun settled =>
    List.append_ne_nil_of_left_ne_nil settled.ne_nil more
  fun_induction openLine s bytes with
  | case1 s bytes settled fault hf =>
    have cut := settled.cutLine_append more
    rw [readBytes_fault settled.ne_nil hf, readBytes_fault (ahead settled) (by rw [cut]; exact hf), cut]
  | case2 s bytes settled text ht s' hscan ih =>
    have cut := settled.cutLine_append more
    have line := Utf8.decode_eq_ok_iff.1 ht
    rw [readBytes_line settled.ne_nil line, readBytes_line (ahead settled) (by rw [cut]; exact line), hscan, cut]
    exact ih h
  | case3 s bytes settled text ht hn =>
    have cut := settled.cutLine_append more
    have line := Utf8.decode_eq_ok_iff.1 ht
    rw [readBytes_line settled.ne_nil line, readBytes_line (ahead settled) (by rw [cut]; exact line), cut]
    cases hscan : s.scan text with
    | unfinished s' => exact absurd hscan (hn s')
    | record fields line rest => rfl
    | misplaced error line rest => rfl
  | case4 => cases h

end Scanner

namespace Reader

/-- A reader between two lines, with nothing pending, whose source delivers `bytes` and then does not go on plainly. -/
structure Faces (r : Reader) (bytes : List UInt8) (event : Source.Event) (after : List Source.Event) : Prop where
  events : ∃ before, (∀ event ∈ before, event.isChunk = true) ∧ Source.Event.unread before = bytes ∧
    r.source.events = before ++ event :: after
  pending : r.pending = []
  exhausted : r.exhausted = false

/-- What a reader gave agrees with a reading, and the reader faces the same as before. -/
structure YieldsFacing (r : Reader) (given : Except Error (Option (List String)) × Reader) (reading : Reading)
    (event : Source.Event) (after : List Source.Event) : Prop where
  result : given.1 = reading.result
  faces : given.2.Faces reading.behind event after
  line : given.2.line = reading.line
  delimiter : given.2.delimiter = r.delimiter
  lineBreaks : given.2.lineBreaks = r.lineBreaks

/-- A reader gave the failure of its source, and goes on behind that. -/
structure Fails (r : Reader) (given : Except Error (Option (List String)) × Reader) (message : String)
    (after : List Source.Event) : Prop where
  result : given.1 = .error (.io message)
  events : given.2.source.events = after
  pending : given.2.pending = []
  exhausted : given.2.exhausted = false
  delimiter : given.2.delimiter = r.delimiter
  lineBreaks : given.2.lineBreaks = r.lineBreaks

variable {r : Reader} {s s' : Scanner} {bytes tail : List UInt8} {event : Source.Event} {after : List Source.Event}

/-- The bytes that a reader has ahead, in front of what it faces and behind that. -/
theorem Faces.unread (h : r.Faces bytes event after) :
    r.source.unread = bytes ++ Source.Event.unread (event :: after) := by
  obtain ⟨before, plain, rfl, events⟩ := h.events
  rw [Source.unread, events, Source.Event.unread_append]

/-- A settled line is taken as ever. -/
theorem Faces.refill_line (h : r.Faces bytes event after) (hs : IsSettled bytes) :
    ∃ r' : Reader, r'.Faces (cutLine bytes).2 event after ∧ r'.line = r.line ∧ r'.delimiter = r.delimiter ∧
      r'.lineBreaks = r.lineBreaks ∧ r.refill = match Utf8.decode (cutLine bytes).1 with
        | .ok text => (.ok true, { r' with pending := text })
        | .error fault => (.error (.io fault.message), r') := by
  obtain ⟨before, plain, rfl, events⟩ := h.events
  have taken := Source.takeLine_of_plain plain
  have line : Source.takeLine r.source.events = (Source.takeLine before).followedBy (event :: after) := by
    rw [events, Source.takeLine_append_of_settled plain hs]
  refine ⟨{ r with source := r.source.behind (Source.takeLine r.source.events) },
    ⟨⟨_, taken.plain, taken.behind, by rw [line]; rfl⟩, h.pending, h.exhausted⟩, rfl, rfl, rfl, ?_⟩
  apply refill_of_takeLine h.exhausted
  · rw [line]
    exact taken.failure
  · rw [line]
    exact taken.bytes
  · exact firstLine_ne_nil hs.ne_nil

/-- **In front of an interruption** a reader reads as its bytes are read, if that stops within them. -/
theorem Faces.readFrom_of_openLine_eq_none (h : r.Faces bytes event after) (hl : r.line = s.line)
    (ho : s.openLine bytes = none) (first : Nat) :
    r.YieldsFacing (r.readFrom first s) (s.readBytes bytes) event after := by
  fun_induction Scanner.openLine s bytes generalizing r with
  | case1 s bytes settled fault hf =>
    obtain ⟨r', faces, hline, hd, hp, hr⟩ := h.refill_line settled
    rw [readFrom_of_pending_nil h.pending hl, hr, hf, Scanner.readBytes_fault settled.ne_nil hf]
    exact ⟨rfl, faces, hline.trans hl, hd, hp⟩
  | case2 s bytes settled text ht s' hscan ih =>
    obtain ⟨r', faces, hline, hd, hp, hr⟩ := h.refill_line settled
    rw [readFrom_of_pending_nil h.pending hl, hr, ht,
      Scanner.readBytes_line settled.ne_nil (Utf8.decode_eq_ok_iff.1 ht), hscan]
    dsimp only
    rw [readFrom_scanned hscan]
    obtain ⟨result, faces', line, delimiter, lineBreaks⟩ := ih (r := Reader.scanned { r' with pending := text } s s')
      ⟨faces.events, rfl, faces.exhausted⟩ rfl ho
    exact ⟨result, faces', line, delimiter.trans hd, lineBreaks.trans hp⟩
  | case3 s bytes settled text ht hn =>
    obtain ⟨r', faces, hline, hd, hp, hr⟩ := h.refill_line settled
    rw [readFrom_of_pending_nil h.pending hl, hr, ht,
      Scanner.readBytes_line settled.ne_nil (Utf8.decode_eq_ok_iff.1 ht)]
    dsimp only
    rw [Reader.readFrom]
    cases hscan : s.scan text with
    | unfinished s' => exact absurd hscan (hn s')
    | record fields line rest =>
      obtain ⟨rfl, -⟩ := Scanner.scan_line_eq_record (isLine_of_decode ht).1 hscan
      exact ⟨rfl, ⟨faces.events, rfl, faces.exhausted⟩, rfl, hd, hp⟩
    | misplaced error line rest =>
      exact ⟨rfl, ⟨faces.events, rfl, faces.exhausted⟩, rfl, hd, hp⟩
  | case4 => cases ho

/-- In front of an interruption the next record is read off the bytes, if that stops within them. -/
theorem Faces.read (h : r.Faces bytes event after)
    (ho : (Scanner.start r.delimiter r.lineBreaks r.line).openLine bytes = none) :
    r.YieldsFacing r.read ((Scanner.start r.delimiter r.lineBreaks r.line).readBytes bytes) event after :=
  h.readFrom_of_openLine_eq_none rfl ho r.line

/-- **Up to an interruption.** A read that does not stop before goes on at the open line. -/
theorem Faces.readFrom_of_openLine_eq_some (h : r.Faces bytes event after) (hl : r.line = s.line)
    (ho : s.openLine bytes = some (s', tail)) (first : Nat) :
    ∃ r' : Reader, r'.Faces tail event after ∧ r'.line = s'.line ∧ r'.delimiter = r.delimiter ∧
      r'.lineBreaks = r.lineBreaks ∧ r.readFrom first s = r'.readFrom first s' := by
  fun_induction Scanner.openLine s bytes generalizing r with
  | case1 => cases ho
  | case2 s bytes settled text ht s₁ hscan ih =>
    obtain ⟨r', faces, hline, hd, hp, hr⟩ := h.refill_line settled
    obtain ⟨r'', faces', line, delimiter, lineBreaks, read⟩ :=
      ih (r := Reader.scanned { r' with pending := text } s s₁) ⟨faces.events, rfl, faces.exhausted⟩ rfl ho
    refine ⟨r'', faces', line, delimiter.trans hd, lineBreaks.trans hp, ?_⟩
    rw [readFrom_of_pending_nil h.pending hl, hr, ht]
    dsimp only
    rw [readFrom_scanned hscan]
    exact read
  | case3 => cases ho
  | case4 s bytes hopen =>
    cases ho
    exact ⟨r, h, hl, rfl, rfl, rfl⟩

/-- An open line that meets a failure is lost. -/
theorem Faces.fails {message : String} (h : r.Faces bytes (.failure message) after) (hl : r.line = s.line)
    (hs : ¬ IsSettled bytes) (first : Nat) : r.Fails (r.readFrom first s) message after := by
  obtain ⟨before, plain, rfl, events⟩ := h.events
  have taken : Source.takeLine r.source.events = ⟨Source.Event.unread before, some message, after⟩ := by
    rw [events, Source.takeLine_append_failure plain hs]
  have failed : r.refill =
      (.error (.io message), { r with source := r.source.behind (Source.takeLine r.source.events) }) := by
    simp only [refill, h.exhausted, Bool.false_eq_true, if_false, taken]
  rw [readFrom_of_pending_nil h.pending hl, failed]
  refine ⟨rfl, ?_, h.pending, h.exhausted, rfl, rfl⟩
  rw [taken]
  rfl

/-- In front of a failure a read that does not stop before meets it. -/
theorem Faces.read_fails {message : String} (h : r.Faces bytes (.failure message) after)
    (ho : (Scanner.start r.delimiter r.lineBreaks r.line).openLine bytes ≠ none) : r.Fails r.read message after := by
  obtain ⟨⟨s', tail⟩, ho⟩ := Option.ne_none_iff_exists'.1 ho
  obtain ⟨r', faces, line, hd, hp, read⟩ := h.readFrom_of_openLine_eq_some rfl ho r.line
  obtain ⟨result, events, pending, exhausted, delimiter, lineBreaks⟩ :=
    faces.fails line (Scanner.not_isSettled_of_openLine ho) r.line
  rw [← read] at result events pending exhausted delimiter lineBreaks
  exact ⟨result, events, pending, exhausted, delimiter.trans hd, lineBreaks.trans hp⟩

end Reader

end DelimitedText
