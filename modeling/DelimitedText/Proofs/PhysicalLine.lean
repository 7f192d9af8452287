import DelimitedText.Proofs.Utf8
import DelimitedText.Stream.Source
import Mathlib.Data.List.TakeWhile

/-!
# Physical lines

`firstLine lf cr` cuts a list behind its first `lf`, `cr`, or `cr` and `lf`; `IsLine` says of a line and what is behind
it that they were cut there, and determines the cut (`firstLine_eq_iff`). The same cut is made of bytes and of
characters: the lines of an encoded text are the encoded lines of the text (`firstLine_encode`). A source that only
delivers chunks takes its lines off the bytes that are left, however these are cut into chunks (`takeLine_of_plain`).
-/

namespace DelimitedText

section Lines

variable {α : Type} {lf cr : α}

/-- No break is among these. -/
def IsUnbroken (lf cr : α) (content : List α) : Prop :=
  ∀ x ∈ content, x ≠ lf ∧ x ≠ cr

instance [DecidableEq α] (content : List α) : Decidable (IsUnbroken lf cr content) :=
  List.decidableBAll (fun x => x ≠ lf ∧ x ≠ cr) content

/-- A break in front of `behind`. A `cr` is a break by itself only if no `lf` follows. -/
def IsBreak (lf cr : α) (terminator behind : List α) : Prop :=
  terminator = [lf] ∨ terminator = [cr, lf] ∨ terminator = [cr] ∧ behind.head? ≠ some lf

/-- A physical line in front of `behind`, or the end of one: the only break is the last of it, and it is missing at most
where nothing is behind. -/
def IsLine (lf cr : α) (line behind : List α) : Prop :=
  ∃ content terminator, line = content ++ terminator ∧ IsUnbroken lf cr content ∧
    (IsBreak lf cr terminator behind ∨ terminator = [] ∧ behind = [])

/-- The end of a line is a line. -/
theorem IsLine.suffix {a b behind : List α} (h : IsLine lf cr (a ++ b) behind) (hb : b ≠ []) :
    IsLine lf cr b behind := by
  obtain ⟨content, terminator, he, hu, ht⟩ := h
  rcases List.append_eq_append_iff.1 he with ⟨more, rfl, rfl⟩ | ⟨more, rfl, hm⟩
  · exact ⟨more, terminator, rfl, fun x hx => hu x (List.mem_append_right _ hx), ht⟩
  · -- the cut is within the terminator, so that it leaves the last one or two characters
    refine ⟨[], b, rfl, fun x hx => absurd hx List.not_mem_nil, .inl ?_⟩
    rcases ht with (rfl | rfl | ⟨rfl, ht⟩) | ⟨rfl, -⟩
    · rcases List.singleton_eq_append_iff.1 hm with ⟨-, rfl⟩ | ⟨-, rfl⟩
      · exact .inl rfl
      · exact absurd rfl hb
    · cases more with
      | nil => cases hm; exact .inr (.inl rfl)
      | cons x more =>
        rcases List.singleton_eq_append_iff.1 (List.cons.inj hm).2 with ⟨-, rfl⟩ | ⟨-, rfl⟩
        · exact .inl rfl
        · exact absurd rfl hb
    · rcases List.singleton_eq_append_iff.1 hm with ⟨-, rfl⟩ | ⟨-, rfl⟩
      · exact .inr (.inr ⟨rfl, ht⟩)
      · exact absurd rfl hb
    · exact absurd (List.append_eq_nil_iff.1 hm.symm).2 hb

theorem isLine_nil : IsLine lf cr [] [] :=
  ⟨[], [], rfl, fun _ he => absurd he List.not_mem_nil, .inr ⟨rfl, rfl⟩⟩

/-- In front of a line more may stand, if that has no break. -/
theorem IsLine.prepend {content line behind : List α} (hc : IsUnbroken lf cr content) (h : IsLine lf cr line behind) :
    IsLine lf cr (content ++ line) behind := by
  obtain ⟨more, terminator, rfl, hu, ht⟩ := h
  exact ⟨content ++ more, terminator, (List.append_assoc _ _ _).symm, List.forall_mem_append.2 ⟨hc, hu⟩, ht⟩

/-- A line that begins with a break holds nothing else. -/
theorem IsLine.isBreak {x : α} {rest behind : List α} (h : IsLine lf cr (x :: rest) behind) (hx : x = lf ∨ x = cr) :
    IsBreak lf cr (x :: rest) behind := by
  obtain ⟨content, terminator, he, hu, ht⟩ := h
  cases content with
  | nil =>
    rw [List.nil_append] at he
    rcases ht with ht | ⟨rfl, -⟩
    · rw [he]; exact ht
    · cases he
  | cons y content =>
    obtain ⟨rfl, -⟩ := List.cons.inj he
    have := hu x List.mem_cons_self
    rcases hx with hx | hx
    · exact absurd hx this.1
    · exact absurd hx this.2

/-- Behind a character that is no break, a line goes on. -/
theorem IsLine.tail {x : α} {rest behind : List α} (h : IsLine lf cr (x :: rest) behind) (hl : x ≠ lf)
    (hc : x ≠ cr) : IsLine lf cr rest behind := by
  obtain ⟨content, terminator, he, hu, ht⟩ := h
  cases content with
  | nil =>
    rw [List.nil_append] at he
    rcases ht with (rfl | rfl | ⟨rfl, -⟩) | ⟨rfl, -⟩ <;> cases he
    · exact absurd rfl hl
    · exact absurd rfl hc
    · exact absurd rfl hc
  | cons y content =>
    obtain ⟨rfl, rfl⟩ := List.cons.inj he
    exact ⟨content, terminator, rfl, fun z hz => hu z (List.mem_cons_of_mem _ hz), ht⟩

variable [DecidableEq α]

/-- The first physical line with the break that ends it, and what is behind it. -/
def firstLine (lf cr : α) : List α → List α × List α
  | [] => ([], [])
  | x :: rest =>
    if x = lf then ([x], rest)
    else if x = cr then if rest.head? = some lf then ([x, lf], rest.tail) else ([x], rest)
    else (x :: (firstLine lf cr rest).1, (firstLine lf cr rest).2)

theorem firstLine_append (lf cr : α) (xs : List α) : (firstLine lf cr xs).1 ++ (firstLine lf cr xs).2 = xs := by
  fun_induction firstLine lf cr xs with
  | case1 => rfl
  | case2 => rfl
  | case3 rest h _ =>
    obtain ⟨tail, rfl⟩ := List.head?_eq_some_iff.1 h
    rfl
  | case4 => rfl
  | case5 x rest _ _ ih => rw [List.cons_append, ih]

theorem firstLine_unbroken_append {content : List α} (h : IsUnbroken lf cr content) (xs : List α) :
    firstLine lf cr (content ++ xs) = (content ++ (firstLine lf cr xs).1, (firstLine lf cr xs).2) := by
  induction content with
  | nil => rfl
  | cons x content ih =>
    obtain ⟨hl, hc⟩ := h x List.mem_cons_self
    rw [List.cons_append, firstLine, if_neg hl, if_neg hc, ih (fun y hy => h y (List.mem_cons_of_mem _ hy))]
    rfl

theorem isLine_firstLine (lf cr : α) (xs : List α) : IsLine lf cr (firstLine lf cr xs).1 (firstLine lf cr xs).2 := by
  have nothing : IsUnbroken lf cr [] := by
    intro x hx
    cases hx
  fun_induction firstLine lf cr xs with
  | case1 => exact ⟨[], [], rfl, nothing, .inr ⟨rfl, rfl⟩⟩
  | case2 rest => exact ⟨[], [lf], rfl, nothing, .inl (.inl rfl)⟩
  | case3 rest _ _ => exact ⟨[], [cr, lf], rfl, nothing, .inl (.inr (.inl rfl))⟩
  | case4 rest h _ => exact ⟨[], [cr], rfl, nothing, .inl (.inr (.inr ⟨rfl, h⟩))⟩
  | case5 x rest hl hc ih =>
    obtain ⟨content, terminator, he, hu, ht⟩ := ih
    refine ⟨x :: content, terminator, by rw [he, List.cons_append], ?_, ht⟩
    intro y hy
    rcases List.mem_cons.1 hy with rfl | hy
    · exact ⟨hl, hc⟩
    · exact hu y hy

/-- A line in front of something is cut off there. -/
theorem firstLine_eq_iff (hlc : lf ≠ cr) {xs line behind : List α} :
    firstLine lf cr xs = (line, behind) ↔ xs = line ++ behind ∧ IsLine lf cr line behind := by
  constructor
  · intro h
    have ha := firstLine_append lf cr xs
    have hl := isLine_firstLine lf cr xs
    rw [h] at ha hl
    exact ⟨ha.symm, hl⟩
  · rintro ⟨rfl, content, terminator, rfl, hu, ht⟩
    rw [List.append_assoc, firstLine_unbroken_append hu]
    rcases ht with (rfl | rfl | ⟨rfl, ht⟩) | ⟨rfl, rfl⟩
    · simp [firstLine]
    · simp [firstLine, hlc.symm]
    · simp [firstLine, hlc.symm, ht]
    · simp [firstLine]

/-- There is a line as long as anything is left. -/
theorem firstLine_ne_nil {xs : List α} (h : xs ≠ []) : (firstLine lf cr xs).1 ≠ [] := by
  cases xs with
  | nil => exact absurd rfl h
  | cons x rest =>
    rw [firstLine]
    split_ifs <;> simp

theorem length_firstLine_behind {xs : List α} (h : xs ≠ []) : (firstLine lf cr xs).2.length < xs.length := by
  have hl := congrArg List.length (firstLine_append lf cr xs)
  have := List.length_pos_iff.2 (@firstLine_ne_nil α lf cr _ xs h)
  rw [List.length_append] at hl
  omega

end Lines

/-! ## Bytes and characters -/

theorem encode_lineFeed : Utf8.encode ['\n'] = [lineFeed] := by decide

theorem encode_carriageReturn : Utf8.encode ['\r'] = [carriageReturn] := by decide

/-- The bytes of a character that breaks no line break none either. -/
theorem isUnbroken_utf8EncodeChar {c : Char} (hn : c ≠ '\n') (hr : c ≠ '\r') :
    IsUnbroken lineFeed carriageReturn (String.utf8EncodeChar c) := by
  have ascii : ∀ (d : Char) (n : Nat), d.val.toNat = n → c ≠ d → c.val.toNat ≠ n := by
    rintro d n rfl h he
    exact h (Char.ext (UInt32.toNat_inj.1 he))
  have hn' := ascii '\n' 10 rfl hn
  have hr' := ascii '\r' 13 rfl hr
  have byte : ∀ n : Nat, n % 256 ≠ 10 → n % 256 ≠ 13 → UInt8.ofNat n ≠ lineFeed ∧ UInt8.ofNat n ≠ carriageReturn := by
    intro n h₁ h₂
    constructor <;> intro h <;> have h := congrArg UInt8.toNat h <;> rw [UInt8.toNat_ofNat'] at h
    · exact h₁ h
    · exact h₂ h
  intro b hb
  unfold String.utf8EncodeChar at hb
  dsimp only at hb
  split_ifs at hb <;> simp only [List.mem_cons, List.not_mem_nil, or_false] at hb
  · subst hb; exact byte _ (by omega) (by omega)
  · rcases hb with rfl | rfl <;> exact byte _ (by omega) (by omega)
  · rcases hb with rfl | rfl | rfl <;> exact byte _ (by omega) (by omega)
  · rcases hb with rfl | rfl | rfl | rfl <;> exact byte _ (by omega) (by omega)

theorem isUnbroken_encode {text : List Char} (h : IsUnbroken '\n' '\r' text) :
    IsUnbroken lineFeed carriageReturn (Utf8.encode text) := by
  intro b hb
  obtain ⟨c, hc, hb⟩ := List.mem_flatMap.1 hb
  exact isUnbroken_utf8EncodeChar (h c hc).1 (h c hc).2 b hb

/-- Encoded text begins with the byte of a line feed iff the text begins with a line feed. -/
theorem head?_encode_eq_lineFeed {text : List Char} :
    (Utf8.encode text).head? = some lineFeed ↔ text.head? = some '\n' := by
  cases text with
  | nil => simp [Utf8.encode]
  | cons c text =>
    rw [Utf8.encode_cons, List.head?_cons, Option.some.injEq]
    by_cases hn : c = '\n'
    · subst hn; exact ⟨fun _ => rfl, fun _ => rfl⟩
    by_cases hr : c = '\r'
    · subst hr
      have : some carriageReturn = some lineFeed ↔ '\r' = '\n' := by decide
      exact this
    have unbroken := isUnbroken_utf8EncodeChar hn hr
    obtain ⟨first, tail, h⟩ : ∃ first tail, String.utf8EncodeChar c = first :: tail :=
      List.exists_cons_of_ne_nil String.utf8EncodeChar_ne_nil
    rw [h] at unbroken ⊢
    simp [(unbroken first List.mem_cons_self).1, hn]

/-- The texts that break lines in front of some bytes. -/
theorem isBreak_encode_iff {text : List Char} {behind : List UInt8} :
    IsBreak lineFeed carriageReturn (Utf8.encode text) behind ↔
      text = ['\n'] ∨ text = ['\r', '\n'] ∨ text = ['\r'] ∧ behind.head? ≠ some lineFeed := by
  have back : ∀ text' : List Char, Utf8.encode text = Utf8.encode text' ↔ text = text' := by
    intro text'
    constructor
    · exact Utf8.encode_injective
    · intro h
      rw [h]
  have crlf : Utf8.encode ['\r', '\n'] = [carriageReturn, lineFeed] := by decide
  rw [IsBreak, ← crlf, ← encode_lineFeed, ← encode_carriageReturn, back, back, back]

/-- Encoding a text encodes its lines. -/
theorem firstLine_encode (text : List Char) : firstLine lineFeed carriageReturn (Utf8.encode text) =
    (Utf8.encode (firstLine '\n' '\r' text).1, Utf8.encode (firstLine '\n' '\r' text).2) := by
  rw [firstLine_eq_iff (by decide), ← Utf8.encode_append, firstLine_append]
  obtain ⟨content, terminator, he, hu, ht⟩ := isLine_firstLine '\n' '\r' text
  refine ⟨rfl, Utf8.encode content, Utf8.encode terminator, by rw [he, Utf8.encode_append], isUnbroken_encode hu, ?_⟩
  rcases ht with (rfl | rfl | ⟨rfl, ht⟩) | ⟨rfl, ht⟩
  · exact .inl (.inl encode_lineFeed)
  · exact .inl (.inr (.inl (by decide)))
  · exact .inl (.inr (.inr ⟨encode_carriageReturn, fun h => ht (head?_encode_eq_lineFeed.1 h)⟩))
  · exact .inr ⟨rfl, by rw [ht]; rfl⟩

/-! ## Lines from a source -/

namespace Source

/-- Whether an event delivers bytes. -/
def Event.isChunk : Event → Bool
  | .chunk _ => true
  | _ => false

/-- Whether a source delivers its bytes without a failure and without a pause. -/
def IsPlain (s : Source) : Prop :=
  ∀ event ∈ s.events, event.isChunk = true

instance (s : Source) : Decidable s.IsPlain :=
  List.decidableBAll (fun event : Event => event.isChunk = true) s.events

/-- Induction over events that are chunks. -/
@[elab_as_elim]
theorem chunk_induction {motive : (events : List Event) → (∀ event ∈ events, event.isChunk = true) → Prop}
    (nil : motive [] fun _ he => absurd he List.not_mem_nil)
    (chunk : ∀ (bytes : List UInt8) (rest : List Event) (h : ∀ event ∈ rest, event.isChunk = true), motive rest h →
      motive (.chunk bytes :: rest) (List.forall_mem_cons.2 ⟨rfl, h⟩))
    (events : List Event) (h : ∀ event ∈ events, event.isChunk = true) : motive events h := by
  induction events with
  | nil => exact nil
  | cons event rest ih =>
    obtain ⟨head, tail⟩ := List.forall_mem_cons.1 h
    cases event with
    | chunk bytes => exact chunk bytes rest tail (ih tail)
    | failure message => cases head
    | pause => cases head

/-- What is taken from a source are the bytes `cut.1`; `cut.2` is left, and will be delivered plainly. -/
structure Taken.Cuts (t : Taken) (cut : List UInt8 × List UInt8) : Prop where
  failure : t.failure = none
  plain : ∀ event ∈ t.rest, event.isChunk = true
  bytes : t.bytes = cut.1
  behind : Event.unread t.rest = cut.2

theorem Taken.Cuts.prepend {t : Taken} {cut : List UInt8 × List UInt8} (h : t.Cuts cut) (bytes : List UInt8) :
    (t.prepend bytes).Cuts (bytes ++ cut.1, cut.2) :=
  ⟨h.failure, h.plain, congrArg (bytes ++ ·) h.bytes, h.behind⟩

variable {events : List Event}

/-- A line feed is taken if it is the first of the bytes that are left. -/
theorem takeLineFeed_of_plain (h : ∀ event ∈ events, event.isChunk = true) : (takeLineFeed events).Cuts
    (if (Event.unread events).head? = some lineFeed then ([lineFeed], (Event.unread events).tail)
      else ([], Event.unread events)) := by
  fun_induction takeLineFeed events with
  | case1 => exact ⟨rfl, h, rfl, rfl⟩
  | case2 => cases h _ List.mem_cons_self
  | case3 => cases h _ List.mem_cons_self
  | case4 rest ih => exact ih fun event he => h event (List.mem_cons_of_mem _ he)
  | case5 bytes rest =>
    refine ⟨rfl, ?_, rfl, rfl⟩
    intro event he
    rcases List.mem_cons.1 he with rfl | he
    · rfl
    · exact h event (List.mem_cons_of_mem _ he)
  | case6 b bytes rest hb =>
    have : (Event.unread (.chunk (b :: bytes) :: rest)).head? ≠ some lineFeed := by
      intro he
      exact hb (Option.some.inj he)
    rw [if_neg this]
    exact ⟨rfl, h, rfl, rfl⟩

theorem isUnbroken_of_isWithinLine {content : List UInt8} (h : ∀ b ∈ content, isWithinLine b = true) :
    IsUnbroken lineFeed carriageReturn content := by
  intro b hb
  simpa [isWithinLine] using h b hb

/-- The first byte that is not within a line is one of the two that end a line. -/
theorem eq_or_eq_of_dropWhile {bytes behind : List UInt8} {terminator : UInt8}
    (h : bytes.dropWhile isWithinLine = terminator :: behind) :
    terminator = lineFeed ∨ terminator = carriageReturn := by
  have := List.head?_dropWhile_not isWithinLine bytes
  rw [h] at this
  simp [isWithinLine] at this
  by_cases hl : terminator = lineFeed
  · exact .inl hl
  · exact .inr (this hl)

/-- **One chunk.** It is within the line, or the line ends in it with a line feed, or with a carriage return behind
which a line feed is looked for; whatever stands behind the chunk. -/
theorem takeLine_chunk (bytes : List UInt8) :
    (IsUnbroken lineFeed carriageReturn bytes ∧
      ∀ rest, takeLine (.chunk bytes :: rest) = (takeLine rest).prepend bytes) ∨
    ∃ content behind, IsUnbroken lineFeed carriageReturn content ∧
      (bytes = content ++ lineFeed :: behind ∧
          (∀ rest, takeLine (.chunk bytes :: rest) = ⟨content ++ [lineFeed], none, .chunk behind :: rest⟩) ∨
        bytes = content ++ carriageReturn :: behind ∧
          ∀ rest, takeLine (.chunk bytes :: rest) =
            (takeLineFeed (.chunk behind :: rest)).prepend (content ++ [carriageReturn])) := by
  cases hd : bytes.dropWhile isWithinLine with
  | nil =>
    refine .inl ⟨isUnbroken_of_isWithinLine (List.dropWhile_eq_nil_iff.1 hd), fun rest => ?_⟩
    simp only [takeLine, hd]
  | cons terminator behind =>
    have content : IsUnbroken lineFeed carriageReturn (bytes.takeWhile isWithinLine) := by
      apply isUnbroken_of_isWithinLine
      intro b hb
      exact List.mem_takeWhile_imp hb
    have cut : bytes = bytes.takeWhile isWithinLine ++ terminator :: behind := by
      rw [← hd, List.takeWhile_append_dropWhile]
    refine .inr ⟨bytes.takeWhile isWithinLine, behind, content, ?_⟩
    rcases eq_or_eq_of_dropWhile hd with rfl | rfl
    · refine .inl ⟨cut, fun rest => ?_⟩
      simp only [takeLine, hd, show lineFeed ≠ carriageReturn by decide, if_false]
    · refine .inr ⟨cut, fun rest => ?_⟩
      simp only [takeLine, hd, if_true]

theorem bytes_takeLineFeed (events : List Event) :
    (takeLineFeed events).bytes = [] ∨ (takeLineFeed events).bytes = [lineFeed] := by
  fun_induction takeLineFeed events with
  | case1 => exact .inl rfl
  | case2 => exact .inl rfl
  | case3 => exact .inl rfl
  | case4 rest ih => exact ih
  | case5 => exact .inr rfl
  | case6 => exact .inl rfl

/-- What is taken is one line at most, whatever the source does behind it. -/
theorem isLine_takeLine (events : List Event) : IsLine lineFeed carriageReturn (takeLine events).bytes [] := by
  induction events with
  | nil => exact isLine_nil
  | cons event rest ih =>
    cases event with
    | failure message => exact isLine_nil
    | pause => exact isLine_nil
    | chunk bytes =>
      obtain ⟨within, taken⟩ | ⟨content, behind, hc, ⟨rfl, taken⟩ | ⟨rfl, taken⟩⟩ := takeLine_chunk bytes
      · rw [taken]
        exact ih.prepend within
      · rw [taken]
        exact ⟨content, [lineFeed], rfl, hc, .inl (.inl rfl)⟩
      · rw [taken]
        rcases bytes_takeLineFeed (.chunk behind :: rest) with looked | looked
        · refine ⟨content, [carriageReturn], ?_, hc, .inl (.inr (.inr ⟨rfl, by simp⟩))⟩
          rw [Taken.prepend, looked, List.append_nil]
        · refine ⟨content, [carriageReturn, lineFeed], ?_, hc, .inl (.inr (.inl rfl))⟩
          rw [Taken.prepend, looked, List.append_assoc]
          rfl

/-- A physical line is taken off the bytes that are left. -/
theorem takeLine_of_plain (h : ∀ event ∈ events, event.isChunk = true) :
    (takeLine events).Cuts (firstLine lineFeed carriageReturn (Event.unread events)) := by
  induction events, h using chunk_induction with
  | nil => exact ⟨rfl, fun _ he => absurd he List.not_mem_nil, rfl, rfl⟩
  | chunk bytes rest hrest ih =>
    rw [Event.unread]
    obtain ⟨within, taken⟩ | ⟨content, behind, hc, ⟨rfl, taken⟩ | ⟨rfl, taken⟩⟩ := takeLine_chunk bytes
    · rw [taken, firstLine_unbroken_append within]
      exact ih.prepend bytes
    · rw [taken, List.append_assoc, firstLine_unbroken_append hc, List.cons_append, firstLine, if_pos rfl]
      exact ⟨rfl, List.forall_mem_cons.2 ⟨rfl, hrest⟩, rfl, rfl⟩
    · have next : ∀ event ∈ Event.chunk behind :: rest, event.isChunk = true :=
        List.forall_mem_cons.2 ⟨rfl, hrest⟩
      have looked := (takeLineFeed_of_plain next).prepend (content ++ [carriageReturn])
      rw [Event.unread] at looked
      rw [taken, List.append_assoc, firstLine_unbroken_append hc, List.cons_append, firstLine, if_neg (by decide),
        if_pos rfl]
      split <;> rename_i hl
      · rw [if_pos hl] at looked
        simpa using looked
      · rw [if_neg hl] at looked
        simpa using looked

end Source

end DelimitedText
