import DelimitedText.Proofs.Calls
import DelimitedText.Proofs.Interruption
import DelimitedText.Proofs.Terminators

/-!
# Records in front of a failure

A record is read in front of a failure of the source iff the bytes settle where it ends: it ends in a line feed, or a
byte is behind its carriage return (`Scanner.openLine_of_record`). So of a stream of records that is cut off by a
failure every record is given before the failure is, but for a last one that ends in a carriage return. That one is lost
with the failure, and not to be had from the source again (`reads_before_failure`).
-/

namespace DelimitedText

/-! ## Where a record is known to end -/

/-- Encoded text ends in the byte of a line feed iff the text ends in a line feed. -/
theorem getLast?_encode_eq_lineFeed {text : List Char} :
    (Utf8.encode text).getLast? = some lineFeed ↔ text.getLast? = some '\n' := by
  cases text using List.reverseRecOn with
  | nil => simp [Utf8.encode]
  | append_singleton text c =>
    have some_ : Utf8.encode [c] ≠ [] := by
      intro he
      cases Utf8.encode_eq_nil.1 he
    rw [Utf8.encode_append, List.getLast?_append_of_ne_nil _ some_, List.getLast?_append_of_ne_nil _ (by simp)]
    by_cases hn : c = '\n'
    · subst hn
      exact ⟨fun _ => rfl, fun _ => by rw [encode_lineFeed]; rfl⟩
    by_cases hr : c = '\r'
    · subst hr
      rw [encode_carriageReturn]
      decide
    · have unbroken : IsUnbroken lineFeed carriageReturn (Utf8.encode [c]) :=
        isUnbroken_encode (List.forall_mem_singleton.2 ⟨hn, hr⟩)
      refine iff_of_false (fun h => (unbroken _ (List.mem_of_getLast? h)).1 rfl) ?_
      simpa using hn

/-- The end of the first line of a text is known iff that ends in a line feed, or more text is behind the line. -/
theorem isSettled_encode {text line behind : List Char} (h : firstLine '\n' '\r' text = (line, behind)) :
    IsSettled (Utf8.encode text) ↔ line.getLast? = some '\n' ∨ behind ≠ [] := by
  rw [IsSettled, cutLine, firstLine_encode, h, getLast?_encode_eq_lineFeed, ne_eq, Utf8.encode_eq_nil]

namespace Scanner

/-- **Where a record ends.** Reading stops in front of whatever follows iff the text ends in a line feed, or more text
is behind the record. -/
theorem openLine_of_record {s : Scanner} {text rest : List Char} {fields : List String} {line : Nat}
    (h : s.scan text = .record fields line rest) :
    s.openLine (Utf8.encode text) = none ↔ text.getLast? = some '\n' ∨ rest ≠ [] := by
  induction hlen : text.length using Nat.strongRecOn generalizing s text with
  | _ n ih =>
    have some_ : text ≠ [] := by
      rintro rfl
      cases h
    obtain ⟨l, text', hcut⟩ : ∃ l text', firstLine '\n' '\r' text = (l, text') := ⟨_, _, rfl⟩
    obtain ⟨rfl, hisl⟩ := (firstLine_eq_iff (by decide)).1 hcut
    have hbytes : cutLine (Utf8.encode (l ++ text')) = (Utf8.encode l, Utf8.encode text') := by
      rw [cutLine, firstLine_encode, hcut]
    have settled := isSettled_encode hcut
    cases hs : s.scan l with
    | unfinished s' =>
      rw [scan_append hs] at h
      have more : text' ≠ [] := by
        rintro rfl
        cases h
      have shorter : (firstLine '\n' '\r' (l ++ text')).2.length < (l ++ text').length := length_firstLine_behind some_
      rw [hcut] at shorter
      rw [openLine_line (settled.2 (.inr more)) (congrArg Prod.fst hbytes), hs, hbytes,
        List.getLast?_append_of_ne_nil _ more]
      exact ih _ (hlen ▸ shorter) h rfl
    | record fields' line' rest' =>
      have hbisl := ((firstLine_eq_iff (by decide)).1 hbytes).2
      obtain ⟨-, a, c, b, s', rfl, ha, hc, -, hb⟩ := scan_line_eq_record hbisl hs
      rw [List.append_assoc, List.cons_append, scan_of_record ha hc, behindBreak_of_isBreak hb] at h
      cases h
      have same : (a ++ c :: b).getLast? = some '\n' ∨ rest ≠ [] ↔
          (a ++ c :: b ++ rest).getLast? = some '\n' ∨ rest ≠ [] := by
        by_cases hr : rest = []
        · rw [hr, List.append_nil]
        · simp [hr]
      rw [← same, ← settled]
      by_cases hset : IsSettled (Utf8.encode (a ++ c :: b ++ rest))
      · rw [openLine_line hset (congrArg Prod.fst hbytes), hs]
        exact iff_of_true rfl hset
      · rw [openLine_of_not_isSettled hset]
        exact iff_of_false (by simp) hset
    | misplaced error line' rest' =>
      obtain ⟨a, c, s', rfl, ha, hc, -⟩ := scan_eq_misplaced hs
      rw [List.append_assoc, List.cons_append, scan_of_misplaced ha hc] at h
      cases h

end Scanner

/-! ## One break from two -/

/-- The same text, with a carriage return and the line feed of an empty record behind it taken as the one break that
they are. -/
def mergeBreaks : List (String × Terminator) → List (String × Terminator)
  | [] => []
  | [line] => [line]
  | line :: next :: lines =>
    if StaysApart line next then line :: mergeBreaks (next :: lines) else (line.1, .both) :: mergeBreaks lines

theorem terminatedText_mergeBreaks (lines : List (String × Terminator)) :
    terminatedText (mergeBreaks lines) = terminatedText lines := by
  fun_induction mergeBreaks lines with
  | case1 => rfl
  | case2 => rfl
  | case3 line next lines apart ih => rw [terminatedText_cons, terminatedText_cons, ih]
  | case4 line next lines together ih =>
    obtain ⟨text, terminator⟩ := line
    obtain ⟨rfl, rfl⟩ := Decidable.not_not.1 together
    rw [terminatedText_cons, terminatedText_cons, terminatedText_cons, ih]
    rfl

theorem isChain_mergeBreaks (lines : List (String × Terminator)) : (mergeBreaks lines).IsChain StaysApart := by
  fun_induction mergeBreaks lines with
  | case1 => exact .nil
  | case2 line => exact .singleton line
  | case3 line next lines apart ih =>
    refine List.isChain_cons.2 ⟨fun first hf joined => ?_, ih⟩
    -- what follows is the same record, with the same break or with both
    cases lines with
    | nil =>
      cases hf
      exact apart joined
    | cons other lines =>
      rw [mergeBreaks] at hf
      split at hf <;> cases hf
      · exact apart joined
      · cases (Prod.ext_iff.1 joined.2).2
  | case4 line next lines together ih =>
    refine List.isChain_cons.2 ⟨fun _ _ joined => ?_, ih⟩
    cases joined.1

theorem exists_mem_of_mem_mergeBreaks {lines : List (String × Terminator)} {line : String × Terminator}
    (h : line ∈ mergeBreaks lines) : ∃ line' ∈ lines, line'.1 = line.1 := by
  fun_induction mergeBreaks lines with
  | case1 => cases h
  | case2 => exact ⟨line, h, rfl⟩
  | case3 first next lines apart ih =>
    rcases List.mem_cons.1 h with rfl | h
    · exact ⟨line, List.mem_cons_self, rfl⟩
    · obtain ⟨line', hm, same⟩ := ih h
      exact ⟨line', List.mem_cons_of_mem _ hm, same⟩
  | case4 first next lines together ih =>
    rcases List.mem_cons.1 h with rfl | h
    · exact ⟨first, List.mem_cons_self, rfl⟩
    · obtain ⟨line', hm, same⟩ := ih h
      exact ⟨line', List.mem_cons_of_mem _ (List.mem_cons_of_mem _ hm), same⟩

/-- A text makes no more than one record. -/
theorem IsRecord.fields_unique {d : Char} {p : LineBreaks} {text : String} {fields fields' : List String}
    (h : IsRecord d p text fields) (h' : IsRecord d p text fields') : fields = fields' := by
  cases h with
  | blank =>
    cases h' with
    | blank => rfl
    | line some_ => exact absurd rfl some_
  | line some_ split =>
    cases h' with
    | blank => exact absurd rfl some_
    | line _ split' => exact Except.ok.inj (split.symm.trans split')

/-- The records of lines of text. -/
theorem exists_records_of_lines {d : Char} {p : LineBreaks} {lines : List (String × Terminator)}
    (h : ∀ line ∈ lines, ∃ fields, IsRecord d p line.1 fields) :
    ∃ records, List.Forall₂ (IsRecord d p) (lines.map Prod.fst) records := by
  induction lines with
  | nil => exact ⟨[], .nil⟩
  | cons line lines ih =>
    obtain ⟨⟨fields, record⟩, rest⟩ := List.forall_mem_cons.1 h
    obtain ⟨records, more⟩ := ih rest
    exact ⟨fields :: records, .cons record more⟩

/-! ## Record after record -/

/-- A text of lines ends in a carriage return iff its last line does. -/
theorem getLast?_terminatedText_cons (text : String) (terminator : Terminator) (lines : List (String × Terminator)) :
    (terminatedText ((text, terminator) :: lines)).getLast? =
      if lines = [] then terminator.chars.getLast? else (terminatedText lines).getLast? := by
  have chars : terminator.chars ≠ [] := by cases terminator <;> decide
  rw [terminatedText_cons]
  by_cases hl : lines = []
  · subst hl
    rw [if_pos rfl, terminatedText, List.flatMap_nil, List.append_nil, List.getLast?_append_of_ne_nil _ chars]
  · obtain ⟨⟨text', terminator'⟩, more, rfl⟩ := List.exists_cons_of_ne_nil hl
    have chars' : terminator'.chars ≠ [] := by cases terminator' <;> decide
    have some_ : terminatedText ((text', terminator') :: more) ≠ [] := by
      rw [terminatedText_cons]
      simp [chars']
    rw [if_neg hl, ← List.append_assoc, List.getLast?_append_of_ne_nil _ some_]

theorem terminatedText_eq_nil {lines : List (String × Terminator)} : terminatedText lines = [] ↔ lines = [] := by
  refine ⟨fun h => ?_, fun h => by rw [h]; rfl⟩
  cases lines with
  | nil => rfl
  | cons line lines =>
    obtain ⟨text, terminator⟩ := line
    rw [terminatedText_cons] at h
    cases terminator <;> simp [Terminator.chars] at h

/-- The records that are given before a failure behind the lines: all but a last one that ends in a carriage return. -/
def givenRecords (lines : List (String × Terminator)) (records : List (List String)) : List (List String) :=
  if (terminatedText lines).getLast? = some '\r' then records.dropLast else records

/-- One record behind whose carriage return nothing is known is not given. -/
theorem givenRecords_carriageReturn (text : String) (fields : List String) :
    givenRecords [(text, .carriageReturn)] [fields] = [] := by
  rw [givenRecords, getLast?_terminatedText_cons, if_pos rfl]
  rfl

/-- Any other first record is given, and whether the last one is depends on the lines behind it. -/
theorem givenRecords_cons {text : String} {terminator : Terminator} {lines : List (String × Terminator)}
    {fields : List String} {records : List (List String)} (known : ¬(terminator = .carriageReturn ∧ lines = []))
    (length : lines.length = records.length) :
    givenRecords ((text, terminator) :: lines) (fields :: records) = fields :: givenRecords lines records := by
  rw [givenRecords, givenRecords, getLast?_terminatedText_cons]
  by_cases hl : lines = []
  · subst hl
    obtain rfl : records = [] := List.length_eq_zero_iff.1 length.symm
    rw [if_pos rfl]
    cases terminator with
    | carriageReturn => exact absurd ⟨rfl, rfl⟩ known
    | lineFeed => rfl
    | both => rfl
  · have some_ : records ≠ [] := by
      rintro rfl
      exact hl (List.length_eq_zero_iff.1 length)
    rw [if_neg hl, List.dropLast_cons_of_ne_nil some_]
    split <;> rfl

namespace Reader

variable {r : Reader} {message : String} {after : List Source.Event}

/-- In front of a failure a record is read iff something is behind its carriage return. -/
theorem Faces.read_terminated {text : String} {terminator : Terminator} {behind : List Char} {fields : List String}
    (hd : isDelimiter r.delimiter = true)
    (h : r.Faces (Utf8.encode (text.toList ++ (terminator.chars ++ behind))) (.failure message) after)
    (hr : IsRecord r.delimiter r.lineBreaks text fields)
    (hb : terminator = .carriageReturn → behind.head? ≠ some '\n') :
    if terminator = .carriageReturn ∧ behind = [] then r.Fails r.read message after
    else ∃ line, r.YieldsFacing r.read ⟨.ok (some fields), line, Utf8.encode behind⟩ (.failure message) after := by
  obtain ⟨last, scan⟩ := hr.scan_terminated hd r.line terminator hb
  have stops := Scanner.openLine_of_record scan
  have ends : (text.toList ++ (terminator.chars ++ behind)).getLast? = some '\n' ∨ behind ≠ [] ↔
      ¬ (terminator = .carriageReturn ∧ behind = []) := by
    by_cases hbehind : behind = []
    · subst hbehind
      rw [List.append_nil]
      cases terminator <;> simp [Terminator.chars]
    · simp [hbehind]
  rw [ends] at stops
  split
  · rename_i lost
    exact h.read_fails fun he => stops.1 he lost
  · rename_i known
    have yields := h.read (stops.2 known)
    rw [Scanner.readBytes_encode, scan] at yields
    exact ⟨last + 1, yields⟩

/-- **Record after record**, and then the failure. -/
theorem Faces.reads_terminated {lines : List (String × Terminator)} {records : List (List String)}
    (hd : isDelimiter r.delimiter = true) (h : r.Faces (Utf8.encode (terminatedText lines)) (.failure message) after)
    (hr : List.Forall₂ (IsRecord r.delimiter r.lineBreaks) (lines.map Prod.fst) records)
    (hc : lines.IsChain StaysApart) :
    (∀ k fields, (givenRecords lines records)[k]? = some fields → (r.afterReads k).read.1 = .ok (some fields)) ∧
      ∃ last : Reader, r.afterReads (givenRecords lines records).length = last ∧
        last.Fails last.read message after := by
  induction lines generalizing r records with
  | nil =>
    cases hr
    refine ⟨fun k fields hk => ?_, r, rfl, ?_⟩
    · cases hk
    · exact h.fails (s := Scanner.start r.delimiter r.lineBreaks r.line) rfl not_isSettled_nil r.line
  | cons first lines ih =>
    obtain ⟨text, terminator⟩ := first
    obtain ⟨fields, rest, record, more, rfl⟩ := List.forall₂_cons_left_iff.1 hr
    obtain ⟨apart, chain⟩ := List.isChain_cons.1 hc
    have behind : terminator = .carriageReturn → (terminatedText lines).head? ≠ some '\n' := by
      intro ht
      have texts : List.Forall₂ (IsRecord r.delimiter r.lineBreaks) (recordTexts lines "") rest := by
        rw [recordTexts, if_pos rfl, List.append_nil]
        exact more
      have head := head?_terminatedText texts fun next hn he => apart next hn ⟨ht, he⟩
      rwa [String.toList_empty, List.append_nil] at head
    rw [terminatedText_cons] at h
    have read := h.read_terminated hd record behind
    simp only [terminatedText_eq_nil] at read
    split at read
    · rename_i lost
      obtain ⟨rfl, rfl⟩ := lost
      cases more
      rw [givenRecords_carriageReturn]
      refine ⟨fun k fields hk => ?_, r, rfl, read⟩
      cases hk
    · rename_i known
      obtain ⟨line, yields⟩ := read
      have length : lines.length = rest.length := by
        rw [← more.length_eq, List.length_map]
      rw [givenRecords_cons known length]
      obtain ⟨reads, last, hlast, fails⟩ := ih (r := r.read.2) (by rw [yields.delimiter]; exact hd) yields.faces
        (by rw [yields.delimiter, yields.lineBreaks]; exact more) chain
      refine ⟨fun k fields' hk => ?_, last, hlast, fails⟩
      cases k with
      | zero =>
        rw [List.getElem?_cons_zero, Option.some.injEq] at hk
        rw [← hk]
        exact yields.result
      | succ k => exact reads k fields' hk

/-- An iteration passes on the records that are read, and a failure with which it ends. -/
theorem records_of_reads {records : List (List String)} {error : Error} {limit : Nat}
    (hr : ∀ k fields, records[k]? = some fields → (r.afterReads k).read.1 = .ok (some fields))
    (he : (r.afterReads records.length).read.1 = .error error) (hp : error.isParseError = false)
    (hl : records.length < limit) : (r.records limit).1 = records.map .ok ++ [.error error] := by
  induction records generalizing r limit with
  | nil =>
    cases limit with
    | zero => cases hl
    | succ limit =>
      obtain ⟨r', read⟩ : ∃ r', r.read = (.error error, r') := ⟨_, Prod.ext he rfl⟩
      have stopped : ({ r' with pending := [], exhausted := true } : Reader).Ended := ⟨rfl, rfl⟩
      simp only [Reader.records, next, read, hp, Bool.false_eq_true, if_false, stopped.records]
      rfl
  | cons fields records ih =>
    cases limit with
    | zero => cases hl
    | succ limit =>
      obtain ⟨r', read⟩ : ∃ r', r.read = (.ok (some fields), r') := ⟨_, Prod.ext (hr 0 fields rfl) rfl⟩
      have rest : (r'.records limit).1 = records.map .ok ++ [.error error] := by
        refine ih (r := r') (fun k fields' hk => ?_) ?_ (Nat.lt_of_succ_lt_succ hl)
        · have next := hr (k + 1) fields' hk
          rwa [afterReads, read] at next
        · rwa [List.length_cons, afterReads, read] at he
      simp only [Reader.records, next, read, rest]
      rfl

end Reader

/-- **Records in front of a failure.** Over records with a line break behind each, delivered in any chunks before the
source fails, a reader gives every record and then the failure, read by read and in an iteration, but for a last record
that ends in a carriage return. That one is lost: the read that should give it fails, and the source goes on behind it.
-/
theorem reads_before_failure {source : Source} {d : Delimiter} {p : LineBreaks} {before after : List Source.Event}
    {message : String} {lines : List (String × Terminator)}
    (hs : source.events = before ++ .failure message :: after) (hb : ∀ event ∈ before, event.isChunk = true)
    (hu : Source.Event.unread before = Utf8.encode (terminatedText lines))
    (hr : ∀ line ∈ lines, ∃ fields, IsRecord d.char p line.1 fields) :
    ∃ records, List.Forall₂ (IsRecord d.char p) ((mergeBreaks lines).map Prod.fst) records ∧
      let given := if (terminatedText lines).getLast? = some '\r' then records.dropLast else records
      let r := Reader.fresh source d.char p
      (∀ k fields, given[k]? = some fields → (r.afterReads k).read.1 = .ok (some fields)) ∧
      (r.afterReads given.length).read.1 = .error (.io message) ∧
      (r.afterReads (given.length + 1)).source.events = after ∧
      ∀ limit, given.length < limit → (r.records limit).1 = given.map .ok ++ [.error (.io message)] := by
  have texts : ∀ line ∈ mergeBreaks lines, ∃ fields, IsRecord d.char p line.1 fields := by
    intro line hm
    obtain ⟨line', hm', same⟩ := exists_mem_of_mem_mergeBreaks hm
    rw [← same]
    exact hr line' hm'
  obtain ⟨records, made⟩ := exists_records_of_lines texts
  refine ⟨records, made, ?_⟩
  have faces : (Reader.fresh source d.char p).Faces (Utf8.encode (terminatedText (mergeBreaks lines)))
      (.failure message) after := by
    rw [terminatedText_mergeBreaks]
    exact ⟨⟨before, hb, hu, hs⟩, rfl, rfl⟩
  obtain ⟨reads, last, hlast, fails⟩ := faces.reads_terminated d.valid made (isChain_mergeBreaks lines)
  rw [givenRecords, terminatedText_mergeBreaks] at reads hlast
  intro given r
  have failure : (r.afterReads given.length).read.1 = .error (.io message) := by
    rw [hlast]
    exact fails.result
  refine ⟨reads, failure, ?_, fun limit hl => Reader.records_of_reads reads failure rfl hl⟩
  rw [Reader.afterReads_succ, hlast]
  exact fails.events

/-- The break of the first record comes in two chunks and belongs to two lines, and the last record is lost. -/
theorem reads_before_failure_cut :
    let lines : List (String × Terminator) := [("a", .carriageReturn), ("", .lineFeed), ("b", .carriageReturn)]
    let before : List Source.Event := [.chunk [97, 13], .chunk [10, 98], .chunk [13]]
    let source : Source := ⟨before ++ [.failure "lost", .chunk [10]], 0⟩
    ((∀ event ∈ before, event.isChunk = true) ∧
        Source.Event.unread before = Utf8.encode (terminatedText lines) ∧
        ∀ line ∈ lines, ∃ fields, IsRecord ',' .raw line.1 fields) ∧
      ((Reader.fresh source ',' .raw).records 9).1 = [.ok ["a"], .error (.io "lost")] := by
  intro lines before source
  have chunks : ∀ event ∈ before, event.isChunk = true := by decide
  have bytes : Source.Event.unread before = Utf8.encode (terminatedText lines) := by decide
  have a : IsRecord ',' .raw "a" ["a"] := .line (by decide) (by rfl) (by decide)
  have b : IsRecord ',' .raw "b" ["b"] := .line (by decide) (by rfl) (by decide)
  have texts : ∀ line ∈ lines, ∃ fields, IsRecord ',' .raw line.1 fields :=
    List.forall_mem_cons.2 ⟨⟨_, a⟩, List.forall_mem_cons.2 ⟨⟨_, .blank⟩, List.forall_mem_singleton.2 ⟨_, b⟩⟩⟩
  refine ⟨⟨chunks, bytes, texts⟩, ?_⟩
  have events : source.events = before ++ .failure "lost" :: [.chunk [10]] := rfl
  obtain ⟨records, made, -, -, -, items⟩ := reads_before_failure (d := .comma) (p := .raw) events chunks bytes texts
  obtain ⟨_, _, first, more, rfl⟩ := List.forall₂_cons_left_iff.1 made
  obtain ⟨_, _, second, nothing, rfl⟩ := List.forall₂_cons_left_iff.1 more
  cases nothing
  obtain rfl := first.fields_unique a
  exact items 9 (Nat.lt_of_le_of_lt (Nat.le_refl 1) (by decide))

/-- The one record of a stream is complete in front of the failure, and is not given. -/
theorem lost_before_failure :
    let source : Source := ⟨[.chunk (Utf8.encode (terminatedText [("a", .carriageReturn)])), .failure "lost"], 0⟩
    let r := Reader.fresh source ',' .raw
    IsRecord ',' .raw "a" ["a"] ∧ r.read.1 = .error (.io "lost") ∧ (r.records 2).1 = [.error (.io "lost")] := by
  intro source r
  have a : IsRecord ',' .raw "a" ["a"] := .line (by decide) (by rfl) (by decide)
  have faces : r.Faces (Utf8.encode ("a".toList ++ (Terminator.carriageReturn.chars ++ []))) (.failure "lost") [] :=
    ⟨⟨[.chunk [97, 13]], by decide, by decide, rfl⟩, rfl, rfl⟩
  have failed := (faces.read_terminated rfl a fun _ h => by cases h).result
  have nothing : ∀ k (fields : List String), [][k]? = some fields → (r.afterReads k).read.1 = .ok (some fields) := by
    intro k fields hk
    cases hk
  exact ⟨a, failed, Reader.records_of_reads nothing failed rfl (by decide)⟩

end DelimitedText
