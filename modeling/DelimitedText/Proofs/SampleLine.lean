import DelimitedText.Proofs.ReadAgain
import DelimitedText.Proofs.RoundTrip
import DelimitedText.Sample

/-!
# Samples as lines

A number of fixed width is read off its text, and as what is read off the text in general (`IntType.Holds`). So a sample
is read off its fields (`Sample.ofFields_fields`), and reading a sample is reading a value of the type of samples, on
every record and with the same error where there is one (`Sample.readRecord_shape`).

No column of a number or a truth value holds a literal. So a sample comes back from its line as its texts do, by
themselves, whatever character is the delimiter (`ofLine_toLine`).
-/

namespace DelimitedText

/-! ## Numbers of fixed width -/

/-- The elements of `α` are the numbers of a type. -/
structure IntType.Holds {α : Type} (type : IntType) (ofInt : Int → α) (toInt : α → Int) : Prop where
  contains : ∀ a, type.contains (toInt a) = true
  ofInt_toInt : ∀ a, ofInt (toInt a) = a
  toInt_ofInt : ∀ n, type.contains n = true → toInt (ofInt n) = n

namespace IntType

theorem contains_iff {type : IntType} {n : Int} : type.contains n = true ↔ type.min ≤ n ∧ n ≤ type.max := by
  rw [contains, Bool.and_eq_true, decide_eq_true_eq, decide_eq_true_eq]

theorem holds_i64 : Holds .i64 Int64.ofInt Int64.toInt where
  contains n := contains_iff.2 ⟨n.le_toInt, Int.le_sub_one_of_lt n.toInt_lt⟩
  ofInt_toInt n := Int64.ofInt_toInt n
  toInt_ofInt n h := by
    obtain ⟨bottom, top⟩ := contains_iff.1 h
    exact Int64.toInt_ofInt_of_le bottom (Int.lt_of_le_sub_one top)

theorem holds_u64 : Holds .u64 (fun n => UInt64.ofNat n.toNat) (fun n => n.toNat) where
  contains n := by
    have top : (n.toNat : Int) < 2 ^ 64 := by exact_mod_cast n.toNat_lt
    exact contains_iff.2 ⟨Int.natCast_nonneg n.toNat, Int.le_sub_one_of_lt top⟩
  ofInt_toInt n := by
    show UInt64.ofNat (n.toNat : Int).toNat = n
    rw [Int.toNat_natCast, UInt64.ofNat_toNat]
  toInt_ofInt n h := by
    obtain ⟨bottom, top⟩ := contains_iff.1 h
    have below : n < 2 ^ 64 := Int.lt_of_le_sub_one top
    have fits : n.toNat < UInt64.size := by show n.toNat < 2 ^ 64; omega
    show ((UInt64.ofNat n.toNat).toNat : Int) = n
    rw [UInt64.toNat_ofNat_of_lt' fits, Int.toNat_of_nonneg bottom]

theorem holds_u32 : Holds .u32 (fun n => UInt32.ofNat n.toNat) (fun n => n.toNat) where
  contains n := by
    have top : (n.toNat : Int) < 2 ^ 32 := by exact_mod_cast n.toNat_lt
    exact contains_iff.2 ⟨Int.natCast_nonneg n.toNat, Int.le_sub_one_of_lt top⟩
  ofInt_toInt n := by
    show UInt32.ofNat (n.toNat : Int).toNat = n
    rw [Int.toNat_natCast, UInt32.ofNat_toNat]
  toInt_ofInt n h := by
    obtain ⟨bottom, top⟩ := contains_iff.1 h
    have below : n < 2 ^ 32 := Int.lt_of_le_sub_one top
    have fits : n.toNat < UInt32.size := by show n.toNat < 2 ^ 32; omega
    show ((UInt32.ofNat n.toNat).toNat : Int) = n
    rw [UInt32.toNat_ofNat_of_lt' fits, Int.toNat_of_nonneg bottom]

section Holds

variable {α : Type} {type : IntType} {ofInt : Int → α} {toInt : α → Int}

/-- A number is read off its text. -/
theorem Holds.int_toString (h : Holds type ofInt toInt) (index : Nat) (a : α) :
    Field.int ⟨index, toString (toInt a)⟩ type = .ok (toInt a) := by
  rw [Field.int, parse?_toString (h.contains a)]
  rfl

theorem Holds.map_int_toString (h : Holds type ofInt toInt) (index : Nat) (a : α) :
    (Field.int ⟨index, toString (toInt a)⟩ type).map ofInt = .ok a := by
  rw [h.int_toString]
  exact congrArg Except.ok (h.ofInt_toInt a)

/-- Whatever number of the type is read, it is an element of `α`. -/
theorem Holds.readField_int (h : Holds type ofInt toInt) (field : Field) :
    Shape.readField field (.int type) = ((field.int type).map ofInt).map fun a => .int type (toInt a) := by
  rw [Shape.readField]
  cases read : field.int type with
  | error error => rfl
  | ok n =>
    have same := h.toInt_ofInt n (contains_of_parse? (Field.expect_eq_ok read))
    exact congrArg (fun m => Except.ok (Value.int type m)) same.symm

end Holds

/-- A number has no backslash in its text. -/
theorem not_mem_toString (n : Int) : '\\' ∉ (toString n).toList := by
  have digits : ∀ n, '\\' ∉ Nat.toDigits 10 n := by
    intro n hm
    cases Nat.isDigit_of_mem_toDigits (by decide) (by decide) hm
  cases n with
  | ofNat n => exact (toList_toString_natCast n).symm ▸ digits n
  | negSucc n =>
    rw [toList_toString_negSucc, List.mem_cons, not_or]
    exact ⟨by decide, digits (n + 1)⟩

end IntType

/-! ## Texts -/

/-- A text as it comes back from a line with escaped line breaks. -/
def rereadText (delimiter : Char) (text : String) : String :=
  if needsQuoting text.toList delimiter then String.ofList (decodeLiterals text.toList) else text

theorem rereadFields_escaped (d : Char) (fields : List String) :
    rereadFields d .escaped .escaped fields = fields.map (rereadText d) := by
  refine List.map_congr_left fun text _ => ?_
  rw [reread.eq_def, rereadText]
  split
  · rfl
  · exact String.ofList_toList

/-- A text without backslashes comes back as it is. -/
theorem rereadText_eq_self {text : String} (h : '\\' ∉ text.toList) (d : Char) : rereadText d text = text := by
  have none : ¬ HasLiteral text.toList := by
    rintro (literal | literal)
    · exact h (literal.subset (by simp))
    · exact h (literal.subset (by simp))
  rw [rereadText, (decodeLiterals_eq_self_iff _).2 none, String.ofList_toList, ite_self]

namespace Sample

/-! ## Samples and values -/

/-- A sample is written as the value that it is. -/
theorem toValue_fields (s : Sample) : s.toValue.fields = .ok s.fields := by
  rfl

/-- A sample is read off its fields. -/
theorem ofFields_fields (s : Sample) : ofFields s.fields = .ok s := by
  have stamp := IntType.holds_i64.int_toString 0 s.timeStamp
  have wide : ∀ index (n : UInt64), readWide ⟨index, toString n.toNat⟩ = .ok n := IntType.holds_u64.map_int_toString
  have narrow : ∀ index (n : UInt32), readNarrow ⟨index, toString n.toNat⟩ = .ok n :=
    IntType.holds_u32.map_int_toString
  have success : Field.bool ⟨7, if s.success then "true" else "false"⟩ = .ok s.success := by
    cases s.success <;> rfl
  simp only [fields, ofFields, stamp, wide, narrow, success, ok_bind, Int64.ofInt_toInt]
  rfl

/-- **Reading a sample is reading a value of its type**, whatever the fields are. -/
theorem readRecord_shape (fields : List String) : shape.readRecord fields = (ofFields fields).map toValue := by
  by_cases count : fields.length = columns
  · match fields, count with
    | [timeStamp, elapsed, label, responseCode, responseMessage, threadName, dataType, success, failureMessage, bytes,
        sentBytes, groupThreads, allThreads, url, latency, idleTime, connect], _ =>
      have text : ∀ field, Shape.readField field .text = .ok (.text field.text) := fun _ => rfl
      have truth : ∀ field, Shape.readField field .bool = field.bool.map .bool := fun _ => rfl
      -- both sides as one field after the other, and each number as what the sample holds
      simp only [shape, Shape.readRecord, Shape.readExactly, List.length_cons, List.length_nil, if_true, List.map_cons,
        List.map_nil, List.zip_cons_cons, List.zip_nil_left, Shape.readEach, text, truth,
        IntType.holds_i64.readField_int, IntType.holds_u64.readField_int, IntType.holds_u32.readField_int, ofFields,
        readWide, readNarrow, ok_bind, map_bind_eq, bind_map_eq, bind_assoc, pure_bind]
      rfl
  · have other : ofFields fields = .error (.fieldCount columns fields.length) :=
      ofFields.eq_2 fields (by intros; subst_vars; exact count rfl)
    rw [other, shape, Shape.readRecord, Shape.readExactly, if_neg fun h => count h.symm]
    rfl

/-! ## Lines -/

/-- A sample with other texts. -/
def mapTexts (f : String → String) (s : Sample) : Sample :=
  { s with
    label := f s.label, responseCode := f s.responseCode, responseMessage := f s.responseMessage,
    threadName := f s.threadName, dataType := f s.dataType, failureMessage := f s.failureMessage, url := f s.url }

/-- The fields of a sample come back as those of the sample with the texts that come back. -/
theorem map_rereadText_fields (s : Sample) (d : Char) :
    s.fields.map (rereadText d) = (s.mapTexts (rereadText d)).fields := by
  have number : ∀ n : Int, rereadText d (toString n) = toString n :=
    fun n => rereadText_eq_self (IntType.not_mem_toString n) d
  have natural : ∀ n : Nat, rereadText d (toString n) = toString n := fun n => number n
  have truth : ∀ b : Bool, rereadText d (if b then "true" else "false") = if b then "true" else "false" := by
    intro b
    cases b
    · exact rereadText_eq_self (by decide) d
    · exact rereadText_eq_self (by decide) d
  simp only [fields, List.map_cons, List.map_nil, number, natural, truth, mapTexts]
  rfl

end Sample

/-- **Samples are read off their lines.** The fields of a sample are those of its value. From its line, with any
delimiter but the quote, a sample comes back with its numbers and truth values as they were, and with line breaks in
place of the literals of a text that was quoted; and it comes back as a value of its type. -/
theorem ofLine_toLine (s : Sample) {d : Char} (hd : d ≠ quote) :
    s.toValue.fields = .ok s.fields ∧
    Sample.ofLine (s.toLine d) d = .ok (s.mapTexts (rereadText d)) ∧
    (splitLine (s.toLine d) d >>= fun fields => Sample.shape.readRecord fields) =
      .ok (s.mapTexts (rereadText d)).toValue := by
  have several : s.fields ≠ [""] := fun h => by cases congrArg List.length h
  have split : splitLine (s.toLine d) d = .ok (s.mapTexts (rereadText d)).fields := by
    rw [Sample.toLine, splitLine_formatLine several fun _ => hd, rereadFields_escaped, Sample.map_rereadText_fields]
  refine ⟨s.toValue_fields, ?_, ?_⟩
  · rw [Sample.ofLine, split, ok_bind, Sample.ofFields_fields]
  · rw [split, ok_bind, Sample.readRecord_shape, Sample.ofFields_fields]
    rfl

/-- The delimiter is a digit of three numbers and of a text. The literal of this text stands in quotes; that of another
does not. -/
theorem ofLine_toLine_digit :
    let s : Sample :=
      { timeStamp := -11, elapsed := 1001, label := "\\n1", success := true, allThreads := 1, url := "\\r" }
    '1' ≠ quote ∧ Sample.ofLine (s.toLine '1') '1' = .ok { s with label := "\n1" } := by
  intro s
  obtain ⟨-, line, -⟩ := ofLine_toLine s (d := '1') (by decide)
  have texts : s.mapTexts (rereadText '1') = { s with label := "\n1" } := by decide
  exact ⟨by decide, texts ▸ line⟩

end DelimitedText
