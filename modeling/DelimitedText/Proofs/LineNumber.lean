import DelimitedText.Proofs.Resume

/-!
# The number of the current line

A reader is meant to be on line 1 and as many more as there are line breaks behind it (`countBreaks`). It counts the
line feeds that it scans, the break that ends a record, and the one that ends the line of a misplaced quote. What it
does not count are the carriage returns without a line feed behind which a record goes on, and the breaks of lines that
are no text: these are `Scanner.uncounted`, and its line number is short by just as many (`line_add_uncounted`).
-/

namespace DelimitedText

section Breaks

variable {α : Type} {lf cr : α} {a b c line behind : List α}

/-- No break lies across the place between `a` and `b`. -/
def Parted (lf cr : α) (a b : List α) : Prop :=
  a.getLast? = some cr → b.head? ≠ some lf

theorem Parted.nil (behind : List α) : Parted lf cr [] behind := by
  intro h
  cases h

theorem Parted.append (h : Parted lf cr a (b ++ c)) (h' : Parted lf cr b c) : Parted lf cr (a ++ b) c := by
  cases b with
  | nil => simpa using h
  | cons x b =>
    intro hl
    rw [List.getLast?_append, List.getLast?_cons, Option.some_or] at hl
    exact h' (List.getLast?_cons.trans hl)

theorem Parted.left (h : Parted lf cr a (b ++ c)) : Parted lf cr a b := by
  intro hl hb
  apply h hl
  rw [List.head?_append, hb]
  rfl

/-- A physical line ends behind its break. -/
theorem IsLine.parted (hlc : lf ≠ cr) (h : IsLine lf cr line behind) : Parted lf cr line behind := by
  obtain ⟨content, terminator, rfl, -, (rfl | rfl | ⟨rfl, hb⟩) | ⟨rfl, rfl⟩⟩ := h <;> intro hl
  · simp [hlc] at hl
  · simp [hlc] at hl
  · exact hb
  · simp

/-- A line is one also where nothing is behind it. -/
theorem IsLine.alone (h : IsLine lf cr line behind) : IsLine lf cr line [] := by
  obtain ⟨content, terminator, he, hu, (ht | ht | ⟨ht, -⟩) | ⟨ht, -⟩⟩ := h
  · exact ⟨content, terminator, he, hu, .inl (.inl ht)⟩
  · exact ⟨content, terminator, he, hu, .inl (.inr (.inl ht))⟩
  · exact ⟨content, terminator, he, hu, .inl (.inr (.inr ⟨ht, by simp⟩))⟩
  · exact ⟨content, terminator, he, hu, .inr ⟨ht, rfl⟩⟩

variable [DecidableEq α]

/-- The number of line breaks, each counted where it ends: an `lf`, or a `cr` without an `lf` behind it. -/
def countBreaks (lf cr : α) : List α → Nat
  | [] => 0
  | x :: rest => (if x = lf ∨ x = cr ∧ rest.head? ≠ some lf then 1 else 0) + countBreaks lf cr rest

theorem countBreaks_append (h : Parted lf cr a b) :
    countBreaks lf cr (a ++ b) = countBreaks lf cr a + countBreaks lf cr b := by
  induction a with
  | nil => simp [countBreaks]
  | cons x a ih =>
    cases a with
    | nil =>
      -- whether `x` ends a break is where it matters what `b` begins with
      have same : x = cr ∧ b.head? ≠ some lf ↔ x = cr := by
        refine and_iff_left_of_imp fun hx => h ?_
        rw [hx]
        rfl
      simp [countBreaks, same]
    | cons y a =>
      have rest : Parted lf cr (y :: a) b := by
        intro hl
        apply h
        rw [List.getLast?_cons_cons, hl]
      rw [List.cons_append, countBreaks, ih rest, ← Nat.add_assoc]
      rfl

theorem countBreaks_unbroken_append {content : List α} (h : IsUnbroken lf cr content) (xs : List α) :
    countBreaks lf cr (content ++ xs) = countBreaks lf cr xs := by
  induction content with
  | nil => rfl
  | cons x content ih =>
    obtain ⟨hl, hc⟩ := h x List.mem_cons_self
    rw [List.cons_append, countBreaks, ih fun y hy => h y (List.mem_cons_of_mem _ hy)]
    simp [hl, hc]

end Breaks

/-! ## The breaks of a line -/

/-- Encoding a text keeps its breaks. -/
theorem countBreaks_encode (text : List Char) :
    countBreaks lineFeed carriageReturn (Utf8.encode text) = countBreaks '\n' '\r' text := by
  induction text with
  | nil => rfl
  | cons c text ih =>
    rw [Utf8.encode_cons, countBreaks, ← ih]
    by_cases hn : c = '\n'
    · subst hn
      rfl
    by_cases hr : c = '\r'
    · subst hr
      have head : (Utf8.encode text).head? = some lineFeed ↔ text.head? = some '\n' := head?_encode_eq_lineFeed
      have other : '\r' ≠ '\n' := by decide
      have other' : carriageReturn ≠ lineFeed := by decide
      have one : String.utf8EncodeChar '\r' = [carriageReturn] := by decide
      rw [one, List.singleton_append, countBreaks]
      simp [head, other, other']
    rw [countBreaks_unbroken_append (isUnbroken_utf8EncodeChar hn hr)]
    simp [hn, hr]

/-- A text whose bytes are a physical line is one. -/
theorem isLine_of_isLine_encode {text : List Char} {behind : List UInt8}
    (h : IsLine lineFeed carriageReturn (Utf8.encode text) behind) : IsLine '\n' '\r' text [] := by
  have cut : cutLine (Utf8.encode text) = (Utf8.encode text, []) :=
    (firstLine_eq_iff (by decide)).2 ⟨(List.append_nil _).symm, h.alone⟩
  rw [cutLine, firstLine_encode, Prod.mk.injEq] at cut
  have whole : firstLine '\n' '\r' text = (text, []) :=
    Prod.ext (Utf8.encode_injective cut.1) (Utf8.encode_eq_nil.1 cut.2)
  exact ((firstLine_eq_iff (by decide)).1 whole).2

/-- The break of a line is a line feed that is scanned, or a last carriage return. -/
theorem countBreaks_line {text : List Char} (h : IsLine '\n' '\r' text []) :
    countBreaks '\n' '\r' text = text.count '\n' + if text.getLast? = some '\r' then 1 else 0 := by
  obtain ⟨content, terminator, rfl, hu, ht⟩ := h
  have unbroken : content.count '\n' = 0 := List.count_eq_zero.2 fun hn => (hu _ hn).1 rfl
  rw [countBreaks_unbroken_append hu, List.count_append, unbroken, Nat.zero_add]
  rcases ht with (rfl | rfl | ⟨rfl, -⟩) | ⟨rfl, -⟩
  · simp [countBreaks]
  · simp [countBreaks]
  · simp [countBreaks]
  · have last : content.getLast? ≠ some '\r' := fun hl => (hu _ (List.mem_of_getLast? hl)).2 rfl
    simp [countBreaks, last]

/-- A line has a break iff it ends in one. -/
theorem countBreaks_line_eq_endsLine {text : List Char} (h : IsLine '\n' '\r' text []) :
    countBreaks '\n' '\r' text = if Reader.endsLine text then 1 else 0 := by
  obtain ⟨content, terminator, rfl, hu, ht⟩ := h
  rw [countBreaks_unbroken_append hu]
  rcases ht with (rfl | rfl | ⟨rfl, -⟩) | ⟨rfl, -⟩
  · simp [countBreaks, Reader.endsLine, isLineBreak]
  · simp [countBreaks, Reader.endsLine, isLineBreak]
  · simp [countBreaks, Reader.endsLine, isLineBreak]
  · have within : Reader.endsLine content = false := by
      unfold Reader.endsLine
      cases hl : content.getLast? with
      | none => rfl
      | some c =>
        have unbroken := hu c (List.mem_of_getLast? hl)
        simp [isLineBreak, unbroken]
    rw [List.append_nil, within]
    rfl

/-- The breaks of a line that is a text. -/
theorem countBreaks_cutLine {bytes : List UInt8} {text : List Char}
    (h : Utf8.decode (cutLine bytes).1 = .ok text) : IsLine '\n' '\r' text [] ∧
      countBreaks lineFeed carriageReturn (cutLine bytes).1 = countBreaks '\n' '\r' text := by
  refine ⟨isLine_of_isLine_encode (isLine_of_decode h).1, ?_⟩
  rw [← countBreaks_encode, Utf8.decode_eq_ok_iff.1 h]

/-- The break that ends a record is counted. -/
theorem countBreaks_of_record {a b : List Char} {c : Char} {behind : List UInt8}
    (hl : IsLine '\n' '\r' (a ++ c :: b) [])
    (h : IsBreak lineFeed carriageReturn (Utf8.encode (c :: b)) behind) :
    countBreaks '\n' '\r' (a ++ c :: b) = a.count '\n' + 1 := by
  rw [countBreaks_line hl, List.count_append, List.getLast?_append]
  rcases isBreak_encode_iff.1 h with h | h | ⟨h, -⟩ <;> obtain ⟨rfl, rfl⟩ := List.cons.inj h <;> rfl

/-- The break of a line in which something is misplaced is counted where the rest of the line is dropped. -/
theorem countBreaks_of_misplaced {a b : List Char} {c : Char} (hl : IsLine '\n' '\r' (a ++ c :: b) [])
    (hc : isLineBreak c = false) :
    countBreaks '\n' '\r' (a ++ c :: b) = a.count '\n' + if Reader.endsLine b then 1 else 0 := by
  have hc' : c ≠ '\n' ∧ c ≠ '\r' := by simpa [isLineBreak] using hc
  have rest : IsLine '\n' '\r' b [] := (hl.suffix (by simp)).tail hc'.1 hc'.2
  rw [← countBreaks_line_eq_endsLine rest, countBreaks_line hl, countBreaks_line rest]
  cases b with
  | nil => simp [hc']
  | cons x b => simp [hc', Nat.add_assoc]

/-! ## Texts in which lines end in line feeds -/

theorem cutLine_encode {text : List Char} {bytes : List UInt8} (h : Utf8.encode text = bytes) : cutLine bytes =
    (Utf8.encode (firstLine '\n' '\r' text).1, Utf8.encode (firstLine '\n' '\r' text).2) := by
  rw [← h]
  exact firstLine_encode text

/-- Every carriage return stands in front of a line feed. -/
def EndsInFeeds (text : List Char) : Prop :=
  ∀ a b, text = a ++ '\r' :: b → b.head? = some '\n'

theorem EndsInFeeds.behind {text : List Char} (h : EndsInFeeds text) : EndsInFeeds (firstLine '\n' '\r' text).2 := by
  intro a b hab
  apply h ((firstLine '\n' '\r' text).1 ++ a) b
  rw [List.append_assoc, ← hab, firstLine_append]

/-- The first line of such a text does not end in a carriage return. -/
theorem EndsInFeeds.getLast?_firstLine {text : List Char} (h : EndsInFeeds text) :
    (firstLine '\n' '\r' text).1.getLast? ≠ some '\r' := by
  intro hl
  obtain ⟨a, ha⟩ := List.getLast?_eq_some_iff.1 hl
  apply (isLine_firstLine '\n' '\r' text).parted (by decide) hl
  apply h a
  rw [List.append_cons, ← ha, firstLine_append]

/-! ## What a read does not count -/

/-- From `line` in front of `bytes` to `line'` in front of `behind`, all breaks in between are counted but `missed`. -/
def Advances (missed line : Nat) (bytes : List UInt8) (line' : Nat) (behind : List UInt8) : Prop :=
  ∃ taken, bytes = taken ++ behind ∧ Parted lineFeed carriageReturn taken behind ∧
    line' + missed = line + countBreaks lineFeed carriageReturn taken

theorem Advances.stay (line : Nat) (bytes : List UInt8) : Advances 0 line bytes line bytes :=
  ⟨[], rfl, Parted.nil bytes, rfl⟩

theorem Advances.trans {missed missed' line line' line'' : Nat} {bytes behind behind' : List UInt8}
    (h : Advances missed line bytes line' behind) (h' : Advances missed' line' behind line'' behind') :
    Advances (missed + missed') line bytes line'' behind' := by
  obtain ⟨taken, rfl, parted, counted⟩ := h
  obtain ⟨taken', rfl, parted', counted'⟩ := h'
  refine ⟨taken ++ taken', (List.append_assoc _ _ _).symm, parted.append parted', ?_⟩
  rw [countBreaks_append parted.left]
  omega

/-- Over one physical line. -/
theorem advances_cutLine {missed line line' : Nat} {bytes : List UInt8}
    (h : line' + missed = line + countBreaks lineFeed carriageReturn (cutLine bytes).1) :
    Advances missed line bytes line' (cutLine bytes).2 :=
  ⟨(cutLine bytes).1, (firstLine_append _ _ bytes).symm, (isLine_firstLine _ _ bytes).parted (by decide), h⟩

namespace Scanner

/-- How many breaks a reading passes without counting them: that of a line that is no text, and each carriage return
without a line feed behind which the record goes on. -/
def uncounted (s : Scanner) (bytes : List UInt8) : Nat :=
  if _h : bytes = [] then 0
  else
    match Utf8.decode (cutLine bytes).1 with
    | .error _ => countBreaks lineFeed carriageReturn (cutLine bytes).1
    | .ok text =>
      match s.scan text with
      | .unfinished s => (if text.getLast? = some '\r' then 1 else 0) + s.uncounted (cutLine bytes).2
      | _ => 0
  termination_by bytes.length
  decreasing_by exact length_firstLine_behind _h

variable {s : Scanner} {bytes : List UInt8}

theorem uncounted_nil (s : Scanner) : s.uncounted [] = 0 := by
  rw [uncounted, dif_pos rfl]

theorem uncounted_fault {fault : Utf8.Fault} (hb : bytes ≠ []) (h : Utf8.decode (cutLine bytes).1 = .error fault) :
    s.uncounted bytes = countBreaks lineFeed carriageReturn (cutLine bytes).1 := by
  rw [uncounted, dif_neg hb, h]

theorem uncounted_line {text : List Char} (hb : bytes ≠ []) (h : Utf8.decode (cutLine bytes).1 = .ok text) :
    s.uncounted bytes =
      match s.scan text with
      | .unfinished s => (if text.getLast? = some '\r' then 1 else 0) + s.uncounted (cutLine bytes).2
      | _ => 0 := by
  rw [uncounted, dif_neg hb, h]

/-- **One read.** A reading counts the breaks that it takes, but for those that it leaves uncounted. -/
theorem advances_readBytes (s : Scanner) (bytes : List UInt8) :
    Advances (s.uncounted bytes) s.line bytes (s.readBytes bytes).line (s.readBytes bytes).behind := by
  fun_induction readBytes s bytes with
  | case1 s =>
    rw [uncounted_nil]
    exact .stay s.line []
  | case2 s bytes hb fault hf =>
    rw [uncounted_fault hb hf]
    exact advances_cutLine rfl
  | case3 s bytes hb text ht fields line rest hs =>
    obtain ⟨-, a, c, b, s', rfl, ha, -, rfl, hbreak⟩ := scan_line_eq_record (isLine_of_decode ht).1 hs
    obtain ⟨isLine, breaks⟩ := countBreaks_cutLine ht
    have counted := (run_of_scan ha).line
    rw [uncounted_line hb ht, hs]
    apply advances_cutLine
    rw [breaks, countBreaks_of_record isLine hbreak]
    show s'.line + 1 + 0 = _
    omega
  | case4 s bytes hb text ht error line rest hs =>
    obtain ⟨a, c, s', rfl, ha, hc, rfl⟩ := scan_eq_misplaced hs
    obtain ⟨isLine, breaks⟩ := countBreaks_cutLine ht
    have counted := (run_of_scan ha).line
    rw [uncounted_line hb ht, hs]
    apply advances_cutLine
    rw [breaks, countBreaks_of_misplaced isLine (feed_eq_misplaced hc).1]
    dsimp only
    split_ifs <;> omega
  | case5 s bytes hb text ht s' hs ih =>
    obtain ⟨isLine, breaks⟩ := countBreaks_cutLine ht
    have counted := (run_of_scan hs).line
    rw [uncounted_line hb ht, hs]
    refine Advances.trans (advances_cutLine ?_) ih
    rw [breaks, countBreaks_line isLine]
    omega

/-- In a text without lone carriage returns every break is counted, and what a reading leaves is again such a text. -/
theorem uncounted_encode {text : List Char} (s : Scanner) (h : EndsInFeeds text) :
    s.uncounted (Utf8.encode text) = 0 ∧
      ∃ more, (s.readBytes (Utf8.encode text)).behind = Utf8.encode more ∧ EndsInFeeds more := by
  generalize he : Utf8.encode text = bytes
  fun_induction readBytes s bytes generalizing text with
  | case1 s => exact ⟨uncounted_nil s, text, he.symm, h⟩
  | case2 s bytes hb fault hf =>
    rw [cutLine_encode he, Utf8.decode_eq_ok_iff.2 rfl] at hf
    cases hf
  | case3 s bytes hb text' ht fields line rest hs =>
    rw [uncounted_line hb ht, hs, cutLine_encode he]
    exact ⟨rfl, _, rfl, h.behind⟩
  | case4 s bytes hb text' ht error line rest hs =>
    rw [uncounted_line hb ht, hs, cutLine_encode he]
    exact ⟨rfl, _, rfl, h.behind⟩
  | case5 s bytes hb text' ht s' hs ih =>
    have cut := cutLine_encode he
    obtain ⟨none_, more⟩ := ih h.behind (congrArg Prod.snd cut).symm
    have line : text' = (firstLine '\n' '\r' text).1 := by
      apply Utf8.encode_injective
      rw [← Utf8.decode_eq_ok_iff.1 ht, cut]
    refine ⟨?_, more⟩
    rw [uncounted_line hb ht, hs]
    dsimp only
    rw [none_, line, if_neg h.getLast?_firstLine]

end Scanner

namespace Reader

/-- How many breaks `n` reads pass without counting them. -/
def uncounted (r : Reader) : Nat → Nat
  | 0 => 0
  | n + 1 => (Scanner.start r.delimiter r.lineBreaks r.line).uncounted r.source.unread + r.read.2.uncounted n

/-- **Read after read.** The lines of a resting reader advance with the breaks behind it. -/
theorem Rests.advances {r : Reader} {bytes : List UInt8} (h : r.Rests bytes) (n : Nat) :
    Advances (r.uncounted n) r.line bytes (r.afterReads n).line (r.afterReads n).source.unread := by
  induction n generalizing r bytes with
  | zero =>
    show Advances 0 r.line bytes r.line r.source.unread
    rw [h.unread]
    exact .stay r.line bytes
  | succ n ih =>
    have read := h.read
    have first := (Scanner.start r.delimiter r.lineBreaks r.line).advances_readBytes bytes
    rw [← read.line] at first
    rw [uncounted, h.unread]
    exact first.trans (ih read.rests)

/-- Reads of a text without lone carriage returns count every break. -/
theorem Rests.uncounted_encode {r : Reader} {text : List Char} (h : r.Rests (Utf8.encode text))
    (ht : EndsInFeeds text) (n : Nat) : r.uncounted n = 0 := by
  induction n generalizing r text with
  | zero => rfl
  | succ n ih =>
    have read := h.read
    obtain ⟨none_, more, behind, hmore⟩ :=
      (Scanner.start r.delimiter r.lineBreaks r.line).uncounted_encode ht
    have rests := read.rests
    rw [behind] at rests
    rw [uncounted, h.unread, none_, ih rests hmore]

end Reader

/-- **The number of the line.** Whatever came of the reads of a fresh reader, the line that it is on and the breaks that
it left uncounted make up 1 and the breaks of the bytes consumed. None is left uncounted in a text whose carriage
returns all stand in front of line feeds. -/
theorem line_add_uncounted {source : Source} {d : Char} {p : LineBreaks} {n : Nat} {r : Reader} (hs : source.IsPlain)
    (hr : (Reader.fresh source d p).afterReads n = r) :
    (∃ taken, source.unread = taken ++ r.source.unread ∧ r.source.consumed = source.consumed + taken.length ∧
      r.line + (Reader.fresh source d p).uncounted n = 1 + countBreaks lineFeed carriageReturn taken) ∧
    ∀ text, source.unread = Utf8.encode text → EndsInFeeds text → (Reader.fresh source d p).uncounted n = 0 := by
  have rests := Reader.rests_fresh hs d p
  constructor
  · obtain ⟨taken, unread, -, counted⟩ := rests.advances n
    have later := Reader.later_afterReads (Reader.fresh source d p) n
    rw [hr] at unread counted later
    exact ⟨taken, unread, later.consumed unread, counted⟩
  · intro text ht feeds
    rw [ht] at rests
    exact rests.uncounted_encode feeds n

/-- The break of a line that is no text is consumed, but not counted. -/
theorem line_add_uncounted_undecodable :
    let source : Source := ⟨[.chunk [255], .chunk [10, 97, 10]], 0⟩
    let r := (Reader.fresh source ',' .escaped).afterReads 1
    source.IsPlain ∧ ∃ taken, source.unread = taken ++ r.source.unread ∧
      r.line + 1 = 1 + countBreaks lineFeed carriageReturn taken := by
  intro source r
  have plain : source.IsPlain := by decide
  have one : (Reader.fresh source ',' .escaped).uncounted 1 = 1 := by
    have fault : Utf8.decode (cutLine source.unread).1 = .error ⟨0, some 1⟩ := by
      show Utf8.decodeFrom 0 [255, 10] = _
      rw [Utf8.decodeFrom]
      rfl
    have missed := (Scanner.start ',' .escaped 1).uncounted_fault (by decide) fault
    have breaks : countBreaks lineFeed carriageReturn (cutLine source.unread).1 = 1 := by decide
    exact missed.trans breaks
  obtain ⟨⟨taken, unread, -, counted⟩, -⟩ := line_add_uncounted (d := ',') (p := .escaped) (n := 1) (r := r) plain rfl
  rw [one] at counted
  exact ⟨plain, taken, unread, counted⟩

/-- A carriage return inside quotes ends a line of the source, and the reader stays on its line. -/
theorem line_ne_of_quoted_return :
    let source : Source := ⟨[.chunk (Utf8.encode "\"a\rb\"\nc\n".toList)], 0⟩
    let r := (Reader.fresh source ',' .raw).afterReads 1
    (source.IsPlain ∧ source.unread = Utf8.encode "\"a\rb\"\n".toList ++ r.source.unread) ∧
      r.line ≠ 1 + countBreaks lineFeed carriageReturn (Utf8.encode "\"a\rb\"\n".toList) := by
  intro source r
  have plain : source.IsPlain := by decide
  have unread : source.unread = Utf8.encode "\"a\rb\"\nc\n".toList := by decide
  have scan : (Scanner.start ',' .raw 1).scan "\"a\rb\"\nc\n".toList = .record ["a\rb"] 1 ['c', '\n'] := by decide
  have reading : (Scanner.start ',' .raw 1).readBytes source.unread =
      ⟨.ok (some ["a\rb"]), 2, Utf8.encode ['c', '\n']⟩ := by
    rw [unread, Scanner.readBytes_encode, scan]
  have read := (Reader.rests_fresh plain ',' .raw).read
  have behind : r.source.unread = Utf8.encode ['c', '\n'] :=
    read.rests.unread.trans (congrArg Reading.behind reading)
  have line : r.line = 2 := read.line.trans (congrArg Reading.line reading)
  refine ⟨⟨plain, ?_⟩, ?_⟩
  · rw [behind]
    decide
  · rw [line]
    decide

end DelimitedText
