import DelimitedText.Proofs.Calls
import DelimitedText.Proofs.LineShift

/-!
# Where a read stops, and reading on from there

`Takes` lists the ways in which a read may come out, with the bytes that it uses up: up to the break that ends the
record, the end of the line in which a quote is misplaced, the end of the line that is no text, or the end of the bytes
(`Scanner.takes_readBytes`).

A read goes on, in its lines and in its source, and counts what it takes (`Reader.later_readFrom`), and no text stays
pending behind it, since it takes its lines to their ends (`Reader.pending_readFrom`). So between two reads a new reader
over what is left goes on as the old one does, but for the lines it reports, whatever the source does
(`Reader.goesOn_afterReads`); over a plain source each read takes just what its result accounts for (`reads_compose`).
-/

namespace DelimitedText

/-- Between `before` and `behind` a physical line begins. -/
def BeginsLine (before behind : List UInt8) : Prop :=
  before = [] ∨ ∃ content terminator, before = content ++ terminator ∧
    IsBreak lineFeed carriageReturn terminator behind

/-- Behind a line a line begins, if anything follows. -/
theorem beginsLine_of_isLine {line behind : List UInt8} (h : IsLine lineFeed carriageReturn line behind)
    (hb : behind ≠ []) (before : List UInt8) : BeginsLine (before ++ line) behind := by
  obtain ⟨content, terminator, rfl, -, ht | ⟨-, rfl⟩⟩ := h
  · exact .inr ⟨before ++ content, terminator, (List.append_assoc _ _ _).symm, ht⟩
  · exact absurd rfl hb

/-- A read that begins in the state `first` has a result, and takes bytes off others that it leaves behind. -/
inductive Takes (first : Scanner) : Except Error (Option (List String)) → List UInt8 → List UInt8 → Prop where
  /-- a record goes up to the line break that ends it, and takes all of that break -/
  | terminated {text more : List Char} {c : Char} {s : Scanner} {fields : List String} {behind : List UInt8}
      (run : first.scan text = .unfinished s) (ends : s.feed c = .record fields)
      (cut : IsBreak lineFeed carriageReturn (Utf8.encode (c :: more)) behind) :
      Takes first (.ok (some fields)) (Utf8.encode (text ++ c :: more)) behind
  /-- a record without a line break goes up to the end -/
  | unterminated {text : List Char} {s : Scanner} {fields : List String} (run : first.scan text = .unfinished s)
      (closed : s.isQuoteOpen = false) (ends : s.finish = some fields) :
      Takes first (.ok (some fields)) (Utf8.encode text) []
  /-- at the end there is nothing to take -/
  | nothing : Takes first (.ok none) [] []
  /-- an open quote takes all that there is -/
  | unclosed {text : List Char} {s : Scanner} (run : first.scan text = .unfinished s) (opened : s.isQuoteOpen = true) :
      Takes first (.error (.unclosedQuote s.line s.field)) (Utf8.encode text) []
  /-- a misplaced quote takes the physical line in which it stands to its end -/
  | misplaced {text more : List Char} {c : Char} {s : Scanner} {error : Error} {behind : List UInt8}
      (run : first.scan text = .unfinished s) (ends : s.feed c = .misplaced error)
      (cut : IsLine lineFeed carriageReturn (Utf8.encode (c :: more)) behind) :
      Takes first (.error error) (Utf8.encode (text ++ c :: more)) behind
  /-- a physical line that is no text is taken as a whole -/
  | undecodable {text : List Char} {s : Scanner} {line behind : List UInt8} {fault : Utf8.Fault}
      (run : first.scan text = .unfinished s) (begins : BeginsLine (Utf8.encode text) (line ++ behind))
      (cut : IsLine lineFeed carriageReturn line behind) (fails : Utf8.decode line = .error fault) :
      Takes first (.error (.io fault.message)) (Utf8.encode text ++ line) behind

namespace Scanner

variable {first s : Scanner} {before : List Char}

/-- Where the bytes end, so does the record. -/
theorem takes_atEnd (hf : first.started = false) (run : first.scan before = .unfinished s) :
    Takes first s.atEnd (Utf8.encode before) [] := by
  unfold atEnd
  cases hq : s.isQuoteOpen with
  | true => exact .unclosed run hq
  | false =>
    cases hs : s.finish with
    | some fields => exact .unterminated run hq hs
    | none =>
      have started := (run_of_scan run).started
      rw [finish_eq_none_iff.1 hs, hf] at started
      obtain rfl : before = [] := by simpa using started
      exact .nothing

/-- **One read.** A read that has come to `s`, where a physical line begins, takes more bytes and leaves the others. -/
theorem takes_readBytes {bytes : List UInt8} (hf : first.started = false) (run : first.scan before = .unfinished s)
    (begins : bytes ≠ [] → BeginsLine (Utf8.encode before) bytes) :
    ∃ taken, Utf8.encode before ++ bytes = taken ++ (s.readBytes bytes).behind ∧
      Takes first (s.readBytes bytes).result taken (s.readBytes bytes).behind := by
  fun_induction readBytes s bytes generalizing before with
  | case1 s => exact ⟨Utf8.encode before, rfl, takes_atEnd hf run⟩
  | case2 s bytes hb fault hfault =>
    have whole := firstLine_append lineFeed carriageReturn bytes
    refine ⟨Utf8.encode before ++ (cutLine bytes).1, by rw [List.append_assoc, whole], ?_⟩
    exact .undecodable run (by rw [whole]; exact begins hb) (isLine_firstLine _ _ bytes) hfault
  | case3 s bytes hb text ht fields line rest hs =>
    obtain ⟨cut, whole⟩ := isLine_of_decode ht
    obtain ⟨rfl, a, c, b, s', rfl, ha, hc, -, hbreak⟩ := scan_line_eq_record cut hs
    have run' : first.scan (before ++ a) = .unfinished s' := (scan_append run a).trans ha
    refine ⟨Utf8.encode (before ++ a ++ c :: b), ?_, .terminated run' hc hbreak⟩
    rw [List.append_assoc, Utf8.encode_append, List.append_assoc, whole]
  | case4 s bytes hb text ht error line rest hs =>
    obtain ⟨cut, whole⟩ := isLine_of_decode ht
    obtain ⟨a, c, s', rfl, ha, hc, -⟩ := scan_eq_misplaced hs
    rw [Utf8.encode_append] at cut
    have more : Utf8.encode (c :: rest) ≠ [] := by
      intro he
      cases Utf8.encode_eq_nil.1 he
    have suffix := cut.suffix more
    have run' : first.scan (before ++ a) = .unfinished s' := (scan_append run a).trans ha
    refine ⟨Utf8.encode (before ++ a ++ c :: rest), ?_, .misplaced run' hc suffix⟩
    rw [List.append_assoc, Utf8.encode_append, List.append_assoc, whole]
  | case5 s bytes hb text ht s' hs ih =>
    obtain ⟨cut, whole⟩ := isLine_of_decode ht
    have begins' : (cutLine bytes).2 ≠ [] → BeginsLine (Utf8.encode (before ++ text)) (cutLine bytes).2 := by
      intro hne
      rw [Utf8.encode_append]
      exact beginsLine_of_isLine cut hne _
    obtain ⟨taken, htaken, takes⟩ := ih ((scan_append run text).trans hs) begins'
    refine ⟨taken, ?_, takes⟩
    rw [← htaken, Utf8.encode_append, List.append_assoc, whole]

end Scanner

/-! ## What a read keeps, over any source -/

namespace Reader

variable {r r' : Reader} {more : Except Error Bool}

/-- A later state of a reader: it has gone back neither in its lines nor in its source, and has counted the bytes that it
took. -/
structure Later (r r' : Reader) : Prop where
  delimiter : r'.delimiter = r.delimiter
  lineBreaks : r'.lineBreaks = r.lineBreaks
  line : r.line ≤ r'.line
  takes : ∃ taken, r.source.unread = taken ++ r'.source.unread ∧
    r'.source.consumed = r.source.consumed + taken.length

theorem Later.refl (r : Reader) : Later r r :=
  ⟨rfl, rfl, Nat.le_refl _, [], rfl, rfl⟩

theorem Later.trans {r₁ r₂ r₃ : Reader} (h : Later r₁ r₂) (h' : Later r₂ r₃) : Later r₁ r₃ := by
  obtain ⟨taken, unread, consumed⟩ := h.takes
  obtain ⟨more, unread', consumed'⟩ := h'.takes
  refine ⟨h'.delimiter.trans h.delimiter, h'.lineBreaks.trans h.lineBreaks, h.line.trans h'.line, taken ++ more, ?_, ?_⟩
  · rw [unread, unread', List.append_assoc]
  · rw [consumed', consumed, List.length_append, Nat.add_assoc]

/-- What is taken off a source is counted, whatever came of it. -/
theorem Later.consumed (h : Later r r') {taken : List UInt8} (hu : r.source.unread = taken ++ r'.source.unread) :
    r'.source.consumed = r.source.consumed + taken.length := by
  obtain ⟨used, unread, consumed⟩ := h.takes
  rw [consumed, List.append_cancel_right (unread.symm.trans hu)]

theorem later_refill (h : r.refill = (more, r')) : Later r r' ∧ r'.line = r.line := by
  have taken : ∃ taken, r.source.unread = taken ++ (r.source.behind (Source.takeLine r.source.events)).unread ∧
      (r.source.behind (Source.takeLine r.source.events)).consumed = r.source.consumed + taken.length :=
    ⟨_, (Source.bytes_append_takeLine r.source.events).symm, rfl⟩
  have given := r.refills
  rw [h] at given
  cases given with
  | ended exhausted => exact ⟨.refl r, rfl⟩
  | nothing bytes => exact ⟨⟨rfl, rfl, Nat.le_refl _, taken⟩, rfl⟩
  | line bytes => exact ⟨⟨rfl, rfl, Nat.le_refl _, taken⟩, rfl⟩
  | failed message => exact ⟨⟨rfl, rfl, Nat.le_refl _, taken⟩, rfl⟩

/-- What is pending behind a refill is the text of one physical line, and there is none unless the refill found one. -/
theorem pending_refill (hp : r.pending = []) (h : r.refill = (more, r')) :
    IsLine lineFeed carriageReturn (Utf8.encode r'.pending) [] ∧ (more ≠ .ok true → r'.pending = []) := by
  have nothing : IsLine lineFeed carriageReturn (Utf8.encode r.pending) [] := by
    rw [hp]
    exact isLine_nil
  have given := r.refills
  rw [h] at given
  cases given with
  | ended exhausted => exact ⟨nothing, fun _ => hp⟩
  | nothing bytes => exact ⟨nothing, fun _ => hp⟩
  | line bytes =>
    refine ⟨?_, fun hn => absurd rfl hn⟩
    rw [← bytes]
    exact Source.isLine_takeLine r.source.events
  | failed message => exact ⟨nothing, fun _ => hp⟩

theorem later_scanned {s s' : Scanner} (hs : s.scan r.pending = .unfinished s') (hl : r.line = s.line) :
    Later r (r.scanned s s') := by
  refine ⟨rfl, rfl, ?_, [], rfl, rfl⟩
  show r.line ≤ s'.line
  rw [hl, (Scanner.run_of_scan hs).line]
  exact Nat.le_add_right _ _

/-- **One read** goes on, over any source. -/
theorem later_readFrom (r : Reader) (first : Nat) (s : Scanner) (hl : r.line = s.line) :
    Later r (r.readFrom first s).2 := by
  have refilled : ∀ {r r' : Reader} {s s' : Scanner} {more : Except Error Bool}, r.line = s.line →
      s.scan r.pending = .unfinished s' → (r.scanned s s').refill = (more, r') → Later r r' ∧ r'.line = s'.line := by
    intro r r' s s' more hl hs hr
    obtain ⟨later, line⟩ := later_refill hr
    exact ⟨(later_scanned hs hl).trans later, line⟩
  fun_induction readFrom r first s with
  | case1 r s continued fields line rest hs spanned =>
    obtain ⟨a, c, b, s', -, ha, -, rfl, -⟩ := Scanner.scan_eq_record hs
    have := (Scanner.run_of_scan ha).line
    exact ⟨rfl, rfl, by dsimp only; omega, [], rfl, rfl⟩
  | case2 r s continued error line rest hs =>
    obtain ⟨a, c, s', -, ha, -, rfl⟩ := Scanner.scan_eq_misplaced hs
    have := (Scanner.run_of_scan ha).line
    refine ⟨rfl, rfl, ?_, [], rfl, rfl⟩
    dsimp only
    split_ifs <;> omega
  | case3 r s continued s' hs error r' hr => exact (refilled hl hs hr).1
  | case4 r s continued s' hs r' hr ih =>
    obtain ⟨later, line⟩ := refilled hl hs hr
    exact later.trans (ih line)
  | case5 r s continued s' hs r' hr hq => exact (refilled hl hs hr).1
  | case6 r s continued s' hs r' hr hq => exact (refilled hl hs hr).1

theorem later_read (r : Reader) : Later r r.read.2 :=
  later_readFrom r r.line _ rfl

/-- A line is read to its end, so nothing of it stays behind. -/
theorem pending_readFrom (r : Reader) (first : Nat) (s : Scanner)
    (hp : IsLine lineFeed carriageReturn (Utf8.encode r.pending) []) : (r.readFrom first s).2.pending = [] := by
  fun_induction readFrom r first s with
  | case1 r s continued fields line rest hs spanned => exact (Scanner.scan_line_eq_record hp hs).1
  | case2 r s continued error line rest hs => rfl
  | case3 r s continued s' hs error r' hr => exact (pending_refill rfl hr).2 (by simp)
  | case4 r s continued s' hs r' hr ih => exact ih (pending_refill rfl hr).1
  | case5 r s continued s' hs r' hr hq => exact (pending_refill rfl hr).2 (by simp)
  | case6 r s continued s' hs r' hr hq => exact (pending_refill rfl hr).2 (by simp)

/-- **Any number of reads.** -/
theorem later_afterReads (r : Reader) (n : Nat) : Later r (r.afterReads n) := by
  induction n generalizing r with
  | zero => exact .refl r
  | succ n ih => exact (later_read r).trans (ih r.read.2)

theorem pending_afterReads (hp : r.pending = []) (n : Nat) : (r.afterReads n).pending = [] := by
  induction n generalizing r with
  | zero => exact hp
  | succ n ih =>
    apply ih
    apply pending_readFrom
    rw [hp]
    exact isLine_nil

/-! ## A new reader over what is left -/

/-- A reader that holds nothing back: if it has found the end, it stays there, and otherwise it goes on as a new one
with these conventions over what its source has left, further down by the lines that lie behind. -/
structure GoesOn (r : Reader) (d : Char) (p : LineBreaks) : Prop where
  pending : r.pending = []
  positive : 0 < r.line
  ended : r.exhausted = true → ∀ k, (r.afterReads k).read.1 = .ok none ∧ (r.afterReads k).line = r.line
  reads : r.exhausted = false → ∀ k, (r.afterReads k).read.1 =
      ((fresh r.source d p).afterReads k).read.1.mapError (Error.below (r.line - 1)) ∧
    (r.afterReads k).line = ((fresh r.source d p).afterReads k).line + (r.line - 1)

theorem below_fresh (hp : r.pending = []) (he : r.exhausted = false) (hl : 0 < r.line) :
    Below (r.line - 1) (fresh r.source r.delimiter r.lineBreaks) r := by
  have line : 1 + (r.line - 1) = r.line := by omega
  refine ⟨r.journal, ?_⟩
  rw [show (fresh r.source r.delimiter r.lineBreaks).line = 1 from rfl, line]
  cases r
  cases hp
  cases he
  rfl

/-- **Between two reads** a reader goes on, whatever its source has done and will do. -/
theorem goesOn_afterReads (source : Source) (d : Char) (p : LineBreaks) (n : Nat) :
    ((fresh source d p).afterReads n).GoesOn d p := by
  obtain ⟨delimiter, lineBreaks, line, -⟩ := later_afterReads (fresh source d p) n
  have pending : ((fresh source d p).afterReads n).pending = [] := pending_afterReads rfl n
  generalize (fresh source d p).afterReads n = r at delimiter lineBreaks line pending
  refine ⟨pending, line, fun exhausted k => ?_, fun exhausted k => ?_⟩
  · have ended : r.Ended := ⟨exhausted, pending⟩
    rw [ended.afterReads, ended.read]
    exact ⟨rfl, rfl⟩
  · have below := below_fresh pending exhausted line
    rw [delimiter, lineBreaks] at below
    exact ⟨(below.afterReads k).read.result, (below.afterReads k).line⟩

end Reader

/-- **Consecutive reads compose.** After any number of reads of a fresh reader nothing is held back, the next read takes
no byte behind those that its result accounts for, and a new reader over the source as it is left goes on as the old one
does, with every line lower by the lines that lie behind. -/
theorem reads_compose {source : Source} {d : Char} {p : LineBreaks} {n : Nat} {r : Reader} (hs : source.IsPlain)
    (hr : (Reader.fresh source d p).afterReads n = r) :
    r.pending = [] ∧
    (∃ taken, r.source.unread = taken ++ r.read.2.source.unread ∧
      r.read.2.source.consumed = r.source.consumed + taken.length ∧
      Takes (Scanner.start d p r.line) r.read.1 taken r.read.2.source.unread) ∧
    0 < r.line ∧
    ∀ k, (r.afterReads k).read.1 =
        ((Reader.fresh r.source d p).afterReads k).read.1.mapError (Error.below (r.line - 1)) ∧
      (r.afterReads k).line = ((Reader.fresh r.source d p).afterReads k).line + (r.line - 1) := by
  have rests := (Reader.rests_fresh hs d p).afterReads n
  have later := Reader.later_afterReads (Reader.fresh source d p) n
  have goes := Reader.goesOn_afterReads source d p n
  rw [hr] at rests later goes
  refine ⟨goes.pending, ?_, goes.positive, ?_⟩
  · have next := rests.yields later.delimiter later.lineBreaks rfl rfl
    have run : (Scanner.start d p r.line).scan [] = .unfinished (Scanner.start d p r.line) := rfl
    obtain ⟨taken, unread, takes⟩ := Scanner.takes_readBytes rfl run fun _ : r.source.unread ≠ [] => .inl rfl
    have unread' : r.source.unread = taken ++ r.read.2.source.unread := by
      rw [next.rests.unread]
      exact unread
    refine ⟨taken, unread', (Reader.later_read r).consumed unread', ?_⟩
    rw [next.result, next.rests.unread]
    exact takes
  · intro k
    cases exhausted : r.exhausted with
    | false => exact goes.reads exhausted k
    | true =>
      -- the old reader has found the end, and a new one finds it at once
      obtain ⟨found, stays⟩ := goes.ended exhausted k
      have again := Reader.rests_fresh rests.plain d p
      rw [rests.exhausted exhausted] at again
      obtain ⟨result, line⟩ := again.afterReads_nil k
      rw [found, stays, result, line]
      exact ⟨rfl, (Nat.add_sub_of_le goes.positive).symm⟩

/-- A record whose carriage return and line feed come in two chunks takes three bytes, the line behind it, with a
misplaced quote, takes five, and what is left, which is no text, is one byte. -/
theorem reads_compose_chunks :
    let source : Source := ⟨[.chunk [97, 13], .chunk [10, 98, 34], .chunk [99, 13, 10, 255], .chunk []], 0⟩
    let new := Reader.fresh source ',' .raw
    let r₁ := new.afterReads 1
    let r := new.afterReads 2
    source.IsPlain ∧ r.pending = [] ∧ r.line = 3 ∧
      (new.read.1 = .ok (some ["a"]) ∧ r₁.source.consumed = 3) ∧
      (r₁.read.1 = .error (.misplacedQuote 2 2 "b\"") ∧ r.source.consumed = 8) ∧
      (r.read.1 = .error (.io "invalid utf-8 sequence of 1 bytes from index 0") ∧ r.read.2.source.consumed = 9) ∧
      ∀ k, (r.afterReads k).read.1 =
        ((Reader.fresh r.source ',' .raw).afterReads k).read.1.mapError (Error.below (r.line - 1)) := by
  intro source new r₁ r
  have plain : source.IsPlain := by decide
  have rests : new.Rests [97, 13, 10, 98, 34, 99, 13, 10, 255] := Reader.rests_fresh plain ',' .raw
  have first : new.Yields new.read ⟨.ok (some ["a"]), 2, [98, 34, 99, 13, 10, 255]⟩ :=
    rests.yields rfl rfl rfl (Scanner.readBytes_line (by decide) (show _ = Utf8.encode "a\r\n".toList from rfl))
  have second : r₁.Yields r₁.read ⟨.error (.misplacedQuote 2 2 "b\""), 3, [255]⟩ :=
    first.rests.yields first.delimiter first.lineBreaks first.line
      (Scanner.readBytes_line (by decide) (show _ = Utf8.encode "b\"c\r\n".toList from rfl))
  have fault : Utf8.decode (cutLine [255]).1 = .error ⟨0, some 1⟩ := by
    rw [show (cutLine [255]).1 = [255] from rfl, Utf8.decode, Utf8.decodeFrom]
    rfl
  have third : r.Yields r.read ⟨.error (.io "invalid utf-8 sequence of 1 bytes from index 0"), 3, []⟩ :=
    second.rests.yields (second.delimiter.trans first.delimiter) (second.lineBreaks.trans first.lineBreaks) second.line
      (Scanner.readBytes_fault (by decide) fault)
  have takes : ∀ (n : Nat) (taken : List UInt8) {behind : List UInt8}, (new.afterReads n).Rests (taken ++ behind) →
      (new.afterReads n).read.2.Rests behind →
      (new.afterReads n).read.2.source.consumed = (new.afterReads n).source.consumed + taken.length := by
    intro n taken behind before after
    obtain ⟨-, ⟨used, unread, consumed, -⟩, -⟩ := reads_compose (d := ',') (p := .raw) (n := n) plain rfl
    rw [before.unread, after.unread] at unread
    rw [consumed, List.append_cancel_right unread]
  have at3 : r₁.source.consumed = 3 := takes 0 [97, 13, 10] rests first.rests
  have at8 : r.source.consumed = 8 := (takes 1 [98, 34, 99, 13, 10] first.rests second.rests).trans (by rw [at3]; rfl)
  have at9 : r.read.2.source.consumed = 9 := (takes 2 [255] second.rests third.rests).trans (by rw [at8]; rfl)
  obtain ⟨pending, -, -, same⟩ := reads_compose (d := ',') (p := .raw) (n := 2) (r := r) plain rfl
  exact ⟨plain, pending, second.line, ⟨first.result, at3⟩, ⟨second.result, at8⟩, ⟨third.result, at9⟩,
    fun k => (same k).1⟩

end DelimitedText
