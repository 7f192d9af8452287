import DelimitedText.Proofs.PhysicalLine
import DelimitedText.Proofs.Run
import DelimitedText.Stream.Reader

/-!
# Reading is a function of the bytes that are left

`Scanner.readBytes` reads a record off a byte string, line by line; it knows no chunks, no pending text and no end
that was reported before. A reader that `Rests` between two records over a plain source reads just so, and rests again
over what is left (`Reader.Rests.read`). Over the encoding of a text, reading is scanning the whole text
(`Scanner.readBytes_encode`).
-/

namespace DelimitedText

/-- How a read comes out: its result, the line of the next character, and the bytes that are left. -/
structure Reading where
  result : Except Error (Option (List String))
  line : Nat
  behind : List UInt8

/-- The first physical line of a byte string, and the bytes behind it. -/
abbrev cutLine (bytes : List UInt8) : List UInt8 × List UInt8 :=
  firstLine lineFeed carriageReturn bytes

/-- A line that is a text, as a line of the bytes. -/
theorem isLine_of_decode {bytes : List UInt8} {text : List Char} (h : Utf8.decode (cutLine bytes).1 = .ok text) :
    IsLine lineFeed carriageReturn (Utf8.encode text) (cutLine bytes).2 ∧
      Utf8.encode text ++ (cutLine bytes).2 = bytes := by
  rw [← Utf8.decode_eq_ok_iff.1 h]
  exact ⟨isLine_firstLine lineFeed carriageReturn bytes, firstLine_append lineFeed carriageReturn bytes⟩

namespace Scanner

variable {s s' : Scanner}

/-- What a record comes to where the input ends. -/
def atEnd (s : Scanner) : Except Error (Option (List String)) :=
  if s.isQuoteOpen then .error (.unclosedQuote s.line s.field) else .ok s.finish

/-- Reads on from `s` over a byte string, at the beginning of a physical line. -/
def readBytes (s : Scanner) (bytes : List UInt8) : Reading :=
  if _h : bytes = [] then ⟨s.atEnd, s.line, []⟩
  else
    match Utf8.decode (cutLine bytes).1 with
    | .error fault => ⟨.error (.io fault.message), s.line, (cutLine bytes).2⟩
    | .ok text =>
      match s.scan text with
      | .record fields line _ => ⟨.ok (some fields), line + 1, (cutLine bytes).2⟩
      | .misplaced error line rest =>
        ⟨.error error, if Reader.endsLine rest then line + 1 else line, (cutLine bytes).2⟩
      | .unfinished s => s.readBytes (cutLine bytes).2
  termination_by bytes.length
  decreasing_by exact length_firstLine_behind _h

/-- Where a record ends within a line, its line break ends the line. -/
theorem scan_line_eq_record {text rest : List Char} {behind : List UInt8} {fields : List String} {line : Nat}
    (hl : IsLine lineFeed carriageReturn (Utf8.encode text) behind) (h : s.scan text = .record fields line rest) :
    rest = [] ∧ ∃ a c b s', text = a ++ c :: b ∧ s.scan a = .unfinished s' ∧ s'.feed c = .record fields ∧
      s'.line = line ∧ IsBreak lineFeed carriageReturn (Utf8.encode (c :: b)) behind := by
  obtain ⟨a, c, b, s', rfl, ha, hc, hline, rfl⟩ := scan_eq_record h
  rw [Utf8.encode_append] at hl
  have hbreak : IsBreak lineFeed carriageReturn (Utf8.encode (c :: b)) behind := by
    have more : Utf8.encode (c :: b) ≠ [] := by
      intro he
      cases Utf8.encode_eq_nil.1 he
    have suffix := hl.suffix more
    rcases (by simpa [isLineBreak] using (feed_eq_record hc).1 : c = '\n' ∨ c = '\r') with rfl | rfl
    · exact suffix.isBreak (.inl rfl)
    · exact suffix.isBreak (.inr rfl)
  refine ⟨?_, a, c, b, s', rfl, ha, hc, hline, hbreak⟩
  rcases isBreak_encode_iff.1 hbreak with h | h | ⟨h, -⟩ <;> obtain ⟨rfl, rfl⟩ := List.cons.inj h <;> rfl

theorem readBytes_nil (s : Scanner) : s.readBytes [] = ⟨s.atEnd, s.line, []⟩ := by
  rw [readBytes, dif_pos rfl]

/-- Reading on at a line that is a text is a matter of scanning that text. -/
theorem readBytes_line {bytes : List UInt8} {text : List Char} (hb : bytes ≠ [])
    (h : (cutLine bytes).1 = Utf8.encode text) : s.readBytes bytes =
      match s.scan text with
      | .record fields line _ => ⟨.ok (some fields), line + 1, (cutLine bytes).2⟩
      | .misplaced error line rest =>
        ⟨.error error, if Reader.endsLine rest then line + 1 else line, (cutLine bytes).2⟩
      | .unfinished s => s.readBytes (cutLine bytes).2 := by
  rw [readBytes, dif_neg hb, Utf8.decode_eq_ok_iff.2 h]

/-- Reading on at a line that is no text. -/
theorem readBytes_fault {bytes : List UInt8} {fault : Utf8.Fault} (hb : bytes ≠ [])
    (h : Utf8.decode (cutLine bytes).1 = .error fault) :
    s.readBytes bytes = ⟨.error (.io fault.message), s.line, (cutLine bytes).2⟩ := by
  rw [readBytes, dif_neg hb, h]

/-! ### Texts -/

theorem behindBreak_lineFeed (text : List Char) : behindBreak '\n' text = text := by
  cases text <;> rfl

/-- Behind a break that ends its line, a text goes on with what is behind the line. -/
theorem behindBreak_of_isBreak {c : Char} {b text : List Char}
    (h : IsBreak lineFeed carriageReturn (Utf8.encode (c :: b)) (Utf8.encode text)) :
    behindBreak c (b ++ text) = text := by
  rcases isBreak_encode_iff.1 h with h | h | ⟨h, hn⟩ <;> obtain ⟨rfl, rfl⟩ := List.cons.inj h
  · exact behindBreak_lineFeed text
  · rfl
  · cases text with
    | nil => rfl
    | cons x text =>
      have hx : x ≠ '\n' := by
        intro he
        apply hn
        rw [head?_encode_eq_lineFeed, he]
        rfl
      simp [behindBreak, hx]

/-- Behind a misplaced quote, what is left of its line is the first line of what is left. -/
theorem firstLine_of_misplaced {a rest text : List Char} {c : Char} {error : Error} (hc : s.feed c = .misplaced error)
    (hl : IsLine '\n' '\r' (a ++ c :: rest) text) : firstLine '\n' '\r' (rest ++ text) = (rest, text) := by
  have hb : c ≠ '\n' ∧ c ≠ '\r' := by simpa [isLineBreak] using (feed_eq_misplaced hc).1
  exact (firstLine_eq_iff (by decide)).2 ⟨rfl, (hl.suffix (by simp)).tail hb.1 hb.2⟩

/-- **Reading a text is scanning it**: a record ends where the scanner ends it, however many lines it takes, and a
misplaced quote drops what is left of its line. -/
theorem readBytes_encode (s : Scanner) (text : List Char) : s.readBytes (Utf8.encode text) =
    match s.scan text with
    | .record fields line rest => ⟨.ok (some fields), line + 1, Utf8.encode rest⟩
    | .misplaced error line rest =>
      ⟨.error error, if Reader.endsLine (firstLine '\n' '\r' rest).1 then line + 1 else line,
        Utf8.encode (firstLine '\n' '\r' rest).2⟩
    | .unfinished s => ⟨s.atEnd, s.line, []⟩ := by
  induction h : text.length using Nat.strongRecOn generalizing s text with
  | _ n ih =>
    by_cases ht : text = []
    · subst ht; exact readBytes_nil s
    obtain ⟨l, text', hcut⟩ : ∃ l text', firstLine '\n' '\r' text = (l, text') := ⟨_, _, rfl⟩
    obtain ⟨rfl, hisl⟩ := (firstLine_eq_iff (by decide)).1 hcut
    have hbytes : cutLine (Utf8.encode (l ++ text')) = (Utf8.encode l, Utf8.encode text') := by
      rw [cutLine, firstLine_encode, hcut]
    have hbisl := ((firstLine_eq_iff (by decide)).1 hbytes).2
    rw [readBytes_line (fun he => ht (Utf8.encode_eq_nil.1 he)) (by rw [hbytes]), hbytes]
    cases hs : s.scan l with
    | unfinished s' =>
      have hlen : (firstLine '\n' '\r' (l ++ text')).2.length < (l ++ text').length := length_firstLine_behind ht
      rw [hcut] at hlen
      simp only [scan_append hs, ih _ (h ▸ hlen) s' text' rfl]
    | record fields line rest =>
      obtain ⟨rfl, a, c, b, s', rfl, ha, hc, rfl, hb⟩ := scan_line_eq_record hbisl hs
      rw [List.append_assoc, List.cons_append, scan_of_record ha hc, behindBreak_of_isBreak hb]
    | misplaced error line rest =>
      obtain ⟨a, c, s', rfl, ha, hc, rfl⟩ := scan_eq_misplaced hs
      rw [List.append_assoc, List.cons_append, scan_of_misplaced ha hc]
      simp only [firstLine_of_misplaced hc hisl]

end Scanner

/-! ## Readers between two records -/

namespace Reader

/-- A reader with the given conventions that has not read yet, such as `ofSource` and `ofOptions` make. -/
def fresh (source : Source) (delimiter : Char) (lineBreaks : LineBreaks) : Reader :=
  { source, delimiter, lineBreaks }

theorem ofSource_eq_fresh (source : Source) (d : Char) : ofSource source d = fresh source d .raw := rfl

theorem ofOptions_eq_fresh (source : Source) (options : Options) :
    ofOptions source options = fresh source options.delimiter.char options.lineBreaks := rfl

/-- A reader between two records, with nothing pending, whose plain source has `bytes` left. -/
structure Rests (r : Reader) (bytes : List UInt8) : Prop where
  plain : r.source.IsPlain
  unread : r.source.unread = bytes
  pending : r.pending = []
  exhausted : r.exhausted = true → bytes = []

theorem rests_of_not_exhausted {r : Reader} (hs : r.source.IsPlain) (hp : r.pending = []) (he : r.exhausted = false) :
    r.Rests r.source.unread := by
  refine ⟨hs, rfl, hp, fun h => ?_⟩
  rw [he] at h
  cases h

theorem rests_fresh {source : Source} (h : source.IsPlain) (d : Char) (p : LineBreaks) :
    (fresh source d p).Rests source.unread :=
  rests_of_not_exhausted h rfl rfl

/-! ### One more line -/

/-- What a reader is given that asks for one more line. -/
inductive Refills (r : Reader) : Except Error Bool × Reader → Prop where
  /-- the end, once it was found -/
  | ended (exhausted : r.exhausted = true) : Refills r (.ok false, r)
  /-- the end, found now -/
  | nothing (bytes : (Source.takeLine r.source.events).bytes = []) :
      Refills r (.ok false, { r with source := r.source.behind (Source.takeLine r.source.events), exhausted := true })
  /-- the text of a line -/
  | line {text : List Char} (bytes : (Source.takeLine r.source.events).bytes = Utf8.encode text) :
      Refills r (.ok true, { r with source := r.source.behind (Source.takeLine r.source.events), pending := text })
  /-- a failure, of the source or of a line that is no text -/
  | failed (message : String) :
      Refills r (.error (.io message), { r with source := r.source.behind (Source.takeLine r.source.events) })

theorem refills (r : Reader) : r.Refills r.refill := by
  unfold refill
  dsimp only
  split
  · exact .ended ‹_›
  split
  · exact .failed _
  split
  · exact .nothing (List.isEmpty_iff.1 ‹_›)
  split
  · exact .line (Utf8.decode_eq_ok_iff.1 ‹_›)
  · exact .failed _

/-- What keeps a refill from its line is no matter of quotes. -/
theorem exists_io_of_refill {r r' : Reader} {error : Error} (h : r.refill = (.error error, r')) :
    ∃ message, error = .io message := by
  have given := r.refills
  rw [h] at given
  cases given with
  | failed message => exact ⟨message, rfl⟩

section ReadFrom

variable {r : Reader} {s s' : Scanner} {first : Nat}

/-- The reader once the pending text was scanned and the record is still open. -/
def scanned (r : Reader) (s s' : Scanner) : Reader :=
  { r with
    pending := [], line := s'.line, journal := r.journal ++ (s.continuedLines r.pending).map Notice.continuedOn }

theorem scanned_of_pending_nil (hp : r.pending = []) (hl : r.line = s.line) : r.scanned s s = r := by
  cases r
  simp_all [scanned, Scanner.continuedLines]

theorem readFrom_of_unfinished (h : s.scan r.pending = .unfinished s') :
    r.readFrom first s = match (r.scanned s s').refill with
      | (.error error, r) => (.error error, r)
      | (.ok true, r) => r.readFrom first s'
      | (.ok false, r) => (s'.atEnd, r) := by
  rw [readFrom]
  simp only [h]
  unfold scanned Scanner.atEnd
  split <;> rename_i hr <;> rw [hr]
  split <;> rfl

/-- Scanning the pending text first makes no difference. -/
theorem readFrom_scanned (h : s.scan r.pending = .unfinished s') :
    r.readFrom first s = (r.scanned s s').readFrom first s' := by
  rw [readFrom_of_unfinished h, readFrom_of_unfinished (r := r.scanned s s') rfl, scanned_of_pending_nil rfl rfl]

/-- With nothing pending, a read begins with the next line. -/
theorem readFrom_of_pending_nil (hp : r.pending = []) (hl : r.line = s.line) :
    r.readFrom first s = match r.refill with
      | (.error error, r) => (.error error, r)
      | (.ok true, r) => r.readFrom first s
      | (.ok false, r) => (s.atEnd, r) := by
  rw [readFrom_of_unfinished (show s.scan r.pending = .unfinished s by rw [hp]; rfl), scanned_of_pending_nil hp hl]

end ReadFrom

/-- What was taken for a line is decoded. -/
theorem refill_of_takeLine {r : Reader} {line : List UInt8} (open_ : r.exhausted = false)
    (failure : (Source.takeLine r.source.events).failure = none)
    (bytes : (Source.takeLine r.source.events).bytes = line) (some_ : line ≠ []) :
    r.refill = match Utf8.decode line with
      | .ok text =>
        (.ok true, { r with source := r.source.behind (Source.takeLine r.source.events), pending := text })
      | .error fault =>
        (.error (.io fault.message), { r with source := r.source.behind (Source.takeLine r.source.events) }) := by
  have nonempty : line.isEmpty = false := List.isEmpty_eq_false_iff.2 some_
  unfold refill
  cases hd : Utf8.decode line with
  | ok text => simp only [open_, Bool.false_eq_true, if_false, failure, bytes, nonempty, hd]
  | error fault => simp only [open_, Bool.false_eq_true, if_false, failure, bytes, nonempty, hd]

/-- At the end of the bytes a resting reader finds none. -/
theorem Rests.refill_nil {r : Reader} (h : r.Rests []) : ∃ r', r.refill = (.ok false, r') ∧ r'.Rests [] ∧
    r'.line = r.line ∧ r'.delimiter = r.delimiter ∧ r'.lineBreaks = r.lineBreaks := by
  unfold refill
  cases he : r.exhausted with
  | true => exact ⟨r, rfl, h, rfl, rfl, rfl⟩
  | false =>
    have taken := Source.takeLine_of_plain h.plain
    rw [show Source.Event.unread r.source.events = [] from h.unread] at taken
    have hb : (Source.takeLine r.source.events).bytes = [] := taken.bytes
    simp only [taken.failure, hb, List.isEmpty_nil, if_true, Bool.false_eq_true, if_false]
    exact ⟨_, rfl, ⟨taken.plain, taken.behind, h.pending, fun _ => rfl⟩, rfl, rfl, rfl⟩

/-- A resting reader takes the next physical line of its bytes. -/
theorem Rests.refill_line {r : Reader} {bytes : List UInt8} (h : r.Rests bytes) (hb : bytes ≠ []) :
    ∃ r' : Reader, r'.Rests (cutLine bytes).2 ∧ r'.line = r.line ∧ r'.delimiter = r.delimiter ∧
      r'.lineBreaks = r.lineBreaks ∧ r.refill = match Utf8.decode (cutLine bytes).1 with
        | .ok text => (.ok true, { r' with pending := text })
        | .error fault => (.error (.io fault.message), r') := by
  have open_ : r.exhausted = false := by
    rw [Bool.eq_false_iff]
    intro he
    exact hb (h.exhausted he)
  have taken := Source.takeLine_of_plain h.plain
  rw [show Source.Event.unread r.source.events = bytes from h.unread] at taken
  refine ⟨{ r with source := r.source.behind (Source.takeLine r.source.events) },
    ⟨taken.plain, taken.behind, h.pending, ?_⟩, rfl, rfl, rfl,
    refill_of_takeLine open_ taken.failure taken.bytes (firstLine_ne_nil hb)⟩
  intro he
  rw [show r.exhausted = true from he] at open_
  cases open_

/-- What a reader gave agrees with a reading, and the reader rests again. -/
structure Yields (r : Reader) (given : Except Error (Option (List String)) × Reader) (reading : Reading) : Prop where
  result : given.1 = reading.result
  rests : given.2.Rests reading.behind
  line : given.2.line = reading.line
  delimiter : given.2.delimiter = r.delimiter
  lineBreaks : given.2.lineBreaks = r.lineBreaks

/-- **Refinement.** A resting reader reads as its bytes are read. -/
theorem Rests.readFrom {r : Reader} {s : Scanner} {bytes : List UInt8} (h : r.Rests bytes) (hl : r.line = s.line)
    (first : Nat) : r.Yields (r.readFrom first s) (s.readBytes bytes) := by
  fun_induction Scanner.readBytes s bytes generalizing r with
  | case1 s =>
    obtain ⟨r', hr, hrest, hline, hd, hp⟩ := h.refill_nil
    rw [readFrom_of_pending_nil h.pending hl, hr]
    exact ⟨rfl, hrest, hline.trans hl, hd, hp⟩
  | case2 s bytes hb fault hf =>
    obtain ⟨r', hrest, hline, hd, hp, hr⟩ := h.refill_line hb
    rw [readFrom_of_pending_nil h.pending hl, hr, hf]
    exact ⟨rfl, hrest, hline.trans hl, hd, hp⟩
  | case3 s bytes hb text ht fields line rest hs =>
    obtain ⟨r', hrest, hline, hd, hp, hr⟩ := h.refill_line hb
    obtain ⟨rfl, -⟩ := Scanner.scan_line_eq_record (isLine_of_decode ht).1 hs
    rw [readFrom_of_pending_nil h.pending hl, hr, ht]
    dsimp only
    rw [Reader.readFrom]
    simp only [hs]
    exact ⟨rfl, ⟨hrest.plain, hrest.unread, rfl, hrest.exhausted⟩, rfl, hd, hp⟩
  | case4 s bytes hb text ht error line rest hs =>
    obtain ⟨r', hrest, hline, hd, hp, hr⟩ := h.refill_line hb
    rw [readFrom_of_pending_nil h.pending hl, hr, ht]
    dsimp only
    rw [Reader.readFrom]
    simp only [hs]
    exact ⟨rfl, ⟨hrest.plain, hrest.unread, rfl, hrest.exhausted⟩, rfl, hd, hp⟩
  | case5 s bytes hb text ht s' hs ih =>
    obtain ⟨r', hrest, hline, hd, hp, hr⟩ := h.refill_line hb
    rw [readFrom_of_pending_nil h.pending hl, hr, ht]
    dsimp only
    rw [readFrom_scanned hs]
    obtain ⟨hres, hrest', hline', hd', hp'⟩ := ih (r := Reader.scanned { r' with pending := text } s s')
      ⟨hrest.plain, hrest.unread, rfl, hrest.exhausted⟩ rfl
    exact ⟨hres, hrest', hline', hd'.trans hd, hp'.trans hp⟩

/-- A resting reader reads its next record off its bytes. -/
theorem Rests.read {r : Reader} {bytes : List UInt8} (h : r.Rests bytes) :
    r.Yields r.read ((Scanner.start r.delimiter r.lineBreaks r.line).readBytes bytes) :=
  h.readFrom rfl r.line

/-- What a resting reader on a known line reads off its bytes. -/
theorem Rests.yields {r : Reader} {bytes : List UInt8} {d : Char} {p : LineBreaks} {line : Nat} {reading : Reading}
    (h : r.Rests bytes) (hd : r.delimiter = d) (hp : r.lineBreaks = p) (hl : r.line = line)
    (hr : (Scanner.start d p line).readBytes bytes = reading) : r.Yields r.read reading := by
  subst hd hp hl hr
  exact h.read

/-! ### Read after read -/

/-- The reader once it has read `n` times, whatever came of it. -/
def afterReads (r : Reader) : Nat → Reader
  | 0 => r
  | n + 1 => r.read.2.afterReads n

theorem afterReads_succ (r : Reader) (n : Nat) : r.afterReads (n + 1) = (r.afterReads n).read.2 := by
  induction n generalizing r with
  | zero => rfl
  | succ n ih => exact ih r.read.2

/-- A resting reader rests again after any number of reads. -/
theorem Rests.afterReads {r : Reader} {bytes : List UInt8} (h : r.Rests bytes) (n : Nat) :
    (r.afterReads n).Rests (r.afterReads n).source.unread := by
  induction n generalizing r bytes with
  | zero =>
    rw [Reader.afterReads, h.unread]
    exact h
  | succ n ih => exact ih h.read.rests

/-- At the end of the bytes a resting reader stays there. -/
theorem Rests.afterReads_nil {r : Reader} (h : r.Rests []) (k : Nat) :
    (r.afterReads k).read.1 = .ok none ∧ (r.afterReads k).line = r.line := by
  induction k generalizing r with
  | zero =>
    have first := h.read
    rw [Scanner.readBytes_nil] at first
    exact ⟨first.result, rfl⟩
  | succ k ih =>
    have first := h.read
    rw [Scanner.readBytes_nil] at first
    obtain ⟨result, line⟩ := ih first.rests
    exact ⟨result, line.trans first.line⟩

end Reader

end DelimitedText
