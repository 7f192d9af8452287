import DelimitedText.Proofs.Calls
import DelimitedText.Proofs.Resume

/-!
# Reading makes progress

Bytes are physical lines one behind the other (`physicalLines`), and the lines of a source are those that it still has.
A reading of bytes takes lines off them, at least one unless there is none (`Scanner.exists_lines_readBytes`). So does
each read of a reader that `Idles`, whatever was asked of it before, unless it finds the end
(`Reader.Idles.exists_lines_of_read`); the lines that are left are thus a measure that every result lowers. There are
no more results than lines, and behind them is the end, for reads and for an iteration alike (`reads_make_progress`).
-/

namespace DelimitedText

/-! ## Physical lines -/

section Lines

variable {α : Type} [DecidableEq α] {lf cr : α} {xs : List α}

/-- The physical lines of a list, each with the break that ends it: an `lf`, a `cr` with the `lf` behind it, or a `cr`
by itself. The last line may have none. -/
def physicalLines (lf cr : α) : List α → List (List α)
  | [] => []
  | x :: rest =>
    if x = lf ∨ x = cr ∧ rest.head? ≠ some lf then [x] :: physicalLines lf cr rest
    else
      match physicalLines lf cr rest with
      | [] => [[x]]
      | line :: lines => (x :: line) :: lines

/-- Nothing is lost. -/
theorem flatten_physicalLines (lf cr : α) (xs : List α) : (physicalLines lf cr xs).flatten = xs := by
  induction xs with
  | nil => rfl
  | cons x rest ih =>
    rw [physicalLines]
    split
    · rw [List.flatten_cons, ih, List.singleton_append]
    · cases h : physicalLines lf cr rest with
      | nil => rw [← ih, h]; rfl
      | cons line lines => rw [← ih, h]; rfl

/-- The first of the physical lines, and those behind it. -/
theorem physicalLines_eq_cons (h : xs ≠ []) :
    physicalLines lf cr xs = (firstLine lf cr xs).1 :: physicalLines lf cr (firstLine lf cr xs).2 := by
  fun_induction firstLine lf cr xs with
  | case1 => exact absurd rfl h
  | case2 rest => rw [physicalLines, if_pos (.inl rfl)]
  | case3 rest next hl =>
    obtain ⟨tail, rfl⟩ := List.head?_eq_some_iff.1 next
    have goesOn : ¬ (cr = lf ∨ cr = cr ∧ (lf :: tail).head? ≠ some lf) := by simp [hl]
    rw [physicalLines, if_neg goesOn, physicalLines, if_pos (.inl rfl)]
    rfl
  | case4 rest next _ => rw [physicalLines, if_pos (.inr ⟨rfl, next⟩)]
  | case5 x rest hl hc ih =>
    have goesOn : ¬ (x = lf ∨ x = cr ∧ rest.head? ≠ some lf) := by simp [hl, hc]
    rw [physicalLines, if_neg goesOn]
    by_cases hr : rest = []
    · subst hr
      rfl
    · rw [ih hr]

end Lines

/-- The physical lines that were not taken yet. -/
def Source.lines (s : Source) : List (List UInt8) :=
  physicalLines lineFeed carriageReturn s.unread

theorem Source.flatten_lines (s : Source) : s.lines.flatten = s.unread :=
  flatten_physicalLines lineFeed carriageReturn s.unread

/-- **One reading** takes whole lines, and at least one if there is any. -/
theorem Scanner.exists_lines_readBytes (s : Scanner) (bytes : List UInt8) : ∃ taken,
    physicalLines lineFeed carriageReturn bytes =
      taken ++ physicalLines lineFeed carriageReturn (s.readBytes bytes).behind ∧ (bytes ≠ [] → taken ≠ []) := by
  fun_induction readBytes s bytes with
  | case1 s => exact ⟨[], rfl, fun h => absurd rfl h⟩
  | case2 s bytes hb fault hf => exact ⟨[(cutLine bytes).1], physicalLines_eq_cons hb, fun _ => by simp⟩
  | case3 s bytes hb text ht fields line rest hs =>
    exact ⟨[(cutLine bytes).1], physicalLines_eq_cons hb, fun _ => by simp⟩
  | case4 s bytes hb text ht error line rest hs =>
    exact ⟨[(cutLine bytes).1], physicalLines_eq_cons hb, fun _ => by simp⟩
  | case5 s bytes hb text ht s' hs ih =>
    -- the record goes on on the next line
    obtain ⟨taken, cut, -⟩ := ih
    refine ⟨(cutLine bytes).1 :: taken, ?_, fun _ => by simp⟩
    rw [physicalLines_eq_cons hb, cut, List.cons_append]

namespace Reader

variable {r : Reader}

/-! ## Readers between two calls -/

/-- A resting reader finds the end just where no byte is left. -/
theorem Rests.read_eq_none_iff {bytes : List UInt8} (h : r.Rests bytes) : r.read.1 = .ok none ↔ bytes = [] := by
  constructor
  · intro none_
    have run : (Scanner.start r.delimiter r.lineBreaks r.line).scan [] =
        .unfinished (Scanner.start r.delimiter r.lineBreaks r.line) := rfl
    obtain ⟨taken, cut, takes⟩ := Scanner.takes_readBytes rfl run fun _ : bytes ≠ [] => .inl rfl
    rw [← h.read.result, none_] at takes
    have whole : bytes = taken ++ _ := cut
    generalize (Scanner.readBytes _ bytes).behind = behind at takes whole
    cases takes
    exact whole
  · rintro rfl
    rw [h.read.result, Scanner.readBytes_nil]
    rfl

/-- A reader over a plain source between two calls: it rests, or it is at its end for good. -/
inductive Idles (r : Reader) : Prop where
  | resting {bytes : List UInt8} (rests : r.Rests bytes)
  | ended (ended : r.Ended)

/-- Every call leaves an idle reader idle. -/
theorem Idles.call (h : r.Idles) (c : Call) : (r.call c).2.Idles := by
  cases h with
  | ended ended =>
    rw [ended.call]
    exact .ended ended
  | resting rests =>
    have next : r.read.2.Idles := .resting rests.read.rests
    cases c with
    | record => exact next
    | value shape =>
      rw [Reader.call, snd_readValue]
      exact next
    | item =>
      rw [Reader.call, snd_next]
      split
      · exact next
      split
      · exact next
      · exact .ended ⟨rfl, rfl⟩

/-- **Any number of calls.** -/
theorem Idles.afterCalls (h : r.Idles) (calls : List Call) : (r.afterCalls calls).Idles := by
  induction calls generalizing r with
  | nil => exact h
  | cons c calls ih => exact ih (h.call c)

/-- **One read** of an idle reader takes whole lines, and at least one unless it finds the end. -/
theorem Idles.exists_lines_of_read (h : r.Idles) (more : r.read.1 ≠ .ok none) :
    ∃ taken, taken ≠ [] ∧ r.source.lines = taken ++ r.read.2.source.lines ∧
      r.read.2.source.consumed = r.source.consumed + taken.flatten.length := by
  cases h with
  | ended ended => exact absurd (by rw [ended.read]) more
  | @resting bytes rests =>
    have left : bytes ≠ [] := fun hb => more (rests.read_eq_none_iff.2 hb)
    obtain ⟨taken, cut, some_⟩ := Scanner.exists_lines_readBytes
      (Scanner.start r.delimiter r.lineBreaks r.line) bytes
    have lines : r.source.lines = taken ++ r.read.2.source.lines := by
      rw [Source.lines, Source.lines, rests.unread, rests.read.rests.unread, cut]
    -- what the lines hold is what the source counts
    refine ⟨taken, some_ left, lines, (later_read r).consumed ?_⟩
    rw [← Source.flatten_lines, lines, List.flatten_append, Source.flatten_lines]

theorem Idles.length_lines_read_lt (h : r.Idles) (more : r.read.1 ≠ .ok none) :
    r.read.2.source.lines.length < r.source.lines.length := by
  obtain ⟨taken, some_, lines, -⟩ := h.exists_lines_of_read more
  have := List.length_pos_iff.2 some_
  rw [lines, List.length_append]
  omega

/-! ## Read after read -/

theorem ended_of_read_eq_none (h : r.read.1 = .ok none) : r.read.2.Ended :=
  ended_readFrom r r.line _ (by rw [← Reader.read, h]; exact .between)

/-- **Reads** give no more results than there are lines, and behind them the end. -/
theorem Idles.exists_end (h : r.Idles) :
    ∃ n ≤ r.source.lines.length, ∀ k, (r.afterReads k).read.1 = .ok none ↔ n ≤ k := by
  induction hl : r.source.lines.length using Nat.strongRecOn generalizing r with
  | ind lines ih =>
    by_cases none_ : r.read.1 = .ok none
    · have ended := ended_of_read_eq_none none_
      refine ⟨0, Nat.zero_le _, fun k => iff_of_true ?_ (Nat.zero_le k)⟩
      cases k with
      | zero => exact none_
      | succ k => rw [Reader.afterReads, ended.afterReads, ended.read]
    · have fewer := h.length_lines_read_lt none_
      rw [hl] at fewer
      obtain ⟨n, bound, ends⟩ := ih _ fewer (h.call .record) rfl
      refine ⟨n + 1, Nat.lt_of_le_of_lt bound fewer, fun k => ?_⟩
      cases k with
      | zero => exact iff_of_false none_ (Nat.not_succ_le_zero n)
      | succ k => rw [Nat.succ_le_succ_iff]; exact ends k

/-! ## Iterations -/

theorem next_eq_none_iff : r.next.1 = none ↔ r.read.1 = .ok none := by
  unfold next
  split <;> rename_i hr <;> simp [hr]

/-- Giving up does not touch the source. -/
theorem source_next (r : Reader) : r.next.2.source = r.read.2.source := by
  rw [snd_next]
  split
  · rfl
  split <;> rfl

theorem records_succ (r : Reader) (limit : Nat) : r.records (limit + 1) = match r.next.1 with
    | none => ([], r.next.2)
    | some item => (item :: (r.next.2.records limit).1, (r.next.2.records limit).2) := by
  rw [Reader.records]
  rcases r.next with ⟨_ | item, later⟩ <;> rfl

/-- **An iteration** gives no more items than there are lines, and has come to its end where it was asked for as
many. -/
theorem Idles.records (h : r.Idles) (limit : Nat) : (r.records limit).1.length ≤ r.source.lines.length ∧
    (r.source.lines.length ≤ limit → (r.records limit).2.next.1 = none) := by
  induction limit generalizing r with
  | zero =>
    refine ⟨Nat.zero_le _, fun few => next_eq_none_iff.2 ?_⟩
    by_contra more
    have := h.length_lines_read_lt more
    omega
  | succ limit ih =>
    rw [records_succ]
    cases hn : r.next.1 with
    | none =>
      have none_ := next_eq_none_iff.1 hn
      have ended : r.next.2.Ended := by
        rw [snd_next, none_]
        exact ended_of_read_eq_none none_
      refine ⟨Nat.zero_le _, fun _ => next_eq_none_iff.2 ?_⟩
      show r.next.2.read.1 = _
      rw [ended.read]
    | some item =>
      have more : r.read.1 ≠ .ok none := by
        rw [Ne, ← next_eq_none_iff, hn]
        exact Option.some_ne_none item
      have fewer := h.length_lines_read_lt more
      rw [← source_next] at fewer
      obtain ⟨bound, ends⟩ := ih (h.call .item)
      exact ⟨Nat.lt_of_le_of_lt bound fewer, fun few => ends (Nat.le_of_lt_succ (fewer.trans_le few))⟩

end Reader

/-- **Reading makes progress.** Over bytes that need not be a text, in any chunks and after any calls, a read that does
not find the end takes whole physical lines, and at least one; and an iteration gives no more items than lines are left,
and then ends. So a fresh reader gives no more results than there are lines, and then, with all bytes used up, the end
for good. -/
theorem reads_make_progress {source : Source} (hs : source.IsPlain) (d : Char) (p : LineBreaks) :
    (∀ calls : List Call,
      let r := (Reader.fresh source d p).afterCalls calls
      (r.read.1 ≠ .ok none → ∃ taken, taken ≠ [] ∧ r.source.lines = taken ++ r.read.2.source.lines ∧
        r.read.2.source.consumed = r.source.consumed + taken.flatten.length) ∧
      ∀ limit, (r.records limit).1.length ≤ r.source.lines.length ∧
        (r.source.lines.length ≤ limit → (r.records limit).2.next.1 = none)) ∧
    ∃ n ≤ source.lines.length, ∀ k,
      let r := (Reader.fresh source d p).afterReads k
      (r.read.1 = .ok none ↔ n ≤ k) ∧ (n ≤ k → r.source.unread = []) := by
  have rests := Reader.rests_fresh hs d p
  have idles : (Reader.fresh source d p).Idles := .resting rests
  constructor
  · intro calls r
    have later : r.Idles := idles.afterCalls calls
    exact ⟨later.exists_lines_of_read, later.records⟩
  · obtain ⟨n, bound, ends⟩ := idles.exists_end
    refine ⟨n, bound, fun k => ⟨ends k, fun behind => ?_⟩⟩
    have now := rests.afterReads k
    exact now.unread.trans (now.read_eq_none_iff.1 ((ends k).2 behind))

/-- Four lines that are all malformed: an open quote in front of a line that is no text, a misplaced quote, and an open
quote at the end. -/
theorem reads_make_progress_malformed :
    let source : Source := ⟨[.chunk [34, 97, 13], .chunk [10, 255], .chunk [13, 98, 34, 10, 34]], 0⟩
    let r := Reader.fresh source ',' .escaped
    (source.IsPlain ∧ source.lines = [[34, 97, 13, 10], [255, 13], [98, 34, 10], [34]]) ∧
      (∃ n ≤ 4, ∀ k, (r.afterReads k).read.1 = .ok none ↔ n ≤ k) ∧
      ∀ limit, 4 ≤ limit → (r.records limit).2.next.1 = none := by
  intro source r
  have plain : source.IsPlain := by decide
  have lines : source.lines = [[34, 97, 13, 10], [255, 13], [98, 34, 10], [34]] := by decide
  have four : source.lines.length = 4 := by rw [lines]; rfl
  obtain ⟨calls, n, bound, ends⟩ := reads_make_progress plain ',' .escaped
  rw [four] at bound
  refine ⟨⟨plain, lines⟩, ⟨n, bound, fun k => (ends k).1⟩, fun limit few => ?_⟩
  exact ((calls []).2 limit).2 (four.le.trans few)

end DelimitedText
