import DelimitedText.Proofs.FlatType

/-!
# Optional records

An optional value that is there is written like the value alone, and so an optional record has the fields of the record.
But it is read off a single field, as a scalar is (`Shape.readRecord_option`), and no field is a compound value
(`Shape.exists_readField_eq_error`). So of the optional values of flat types only elements are read back
(`optional_read_back`).
-/

namespace DelimitedText

namespace Shape

/-- Whether the values of a type are made of elements; there may be names around it. -/
def isCompound : Shape → Bool
  | .seq _ | .tuple _ | .tupleStruct _ _ | .struct _ _ => true
  | .newtypeStruct _ shape => shape.isCompound
  | _ => false

/-- A flat type is made of elements, or is one. -/
theorem isElement_or_isCompound {shape : Shape} (h : shape.isFlat = true) :
    shape.isElement = true ∨ shape.isCompound = true := by
  fun_induction isFlat shape with
  | case1 => exact .inr rfl
  | case2 => exact .inr rfl
  | case3 => exact .inr rfl
  | case4 => exact .inr rfl
  | case5 name shape ih => exact ih h
  | case6 => exact .inl h

theorem isElement_eq_false_of_isCompound {shape : Shape} (h : shape.isCompound = true) : shape.isElement = false := by
  fun_induction isCompound shape with
  | case5 name shape ih => exact ih h
  | case6 => cases h
  | _ => rfl

/-- No field is read as a compound value. -/
theorem exists_readField_eq_error {shape : Shape} (h : shape.isCompound = true) (field : Field) :
    ∃ error, shape.readField field = .error error := by
  fun_induction isCompound shape with
  | case5 name shape ih =>
    obtain ⟨error, he⟩ := ih h
    exact ⟨error, by rw [readField, he]; rfl⟩
  | case6 => cases h
  | _ => exact ⟨_, rfl⟩

/-- An optional value is read off a single field. -/
theorem readRecord_option (shape : Shape) (fields : List String) : (option shape).readRecord fields =
    match fields with
    | [content] => if content = "" then .ok .absent else (shape.readField ⟨0, content⟩).map .present
    | _ => .error (.fieldCount 1 fields.length) := by
  cases fields with
  | nil => rfl
  | cons text rest => cases rest <;> rfl

/-- An optional compound value is read as absent or not at all. -/
theorem readRecord_option_of_isCompound {shape : Shape} (h : shape.isCompound = true) (fields : List String) :
    (fields = [""] → (option shape).readRecord fields = .ok .absent) ∧
    (∀ text, fields = [text] → text ≠ "" → ∃ error, shape.readField ⟨0, text⟩ = .error error ∧
      (option shape).readRecord fields = .error error) ∧
    (fields.length ≠ 1 → (option shape).readRecord fields = .error (.fieldCount 1 fields.length)) := by
  rw [readRecord_option]
  refine ⟨?_, ?_, fun hl => ?_⟩
  · rintro rfl
    rfl
  · rintro text rfl some_
    obtain ⟨error, he⟩ := exists_readField_eq_error h ⟨0, text⟩
    refine ⟨error, he, ?_⟩
    dsimp only
    rw [if_neg some_, he]
    rfl
  · split
    · exact absurd rfl hl
    · rfl

theorem readRecord_option_ne_present {shape : Shape} (h : shape.isCompound = true) (fields : List String)
    (value : Value) : (option shape).readRecord fields ≠ .ok (.present value) := by
  obtain ⟨empty, one, other⟩ := readRecord_option_of_isCompound h fields
  intro read
  by_cases hl : fields.length = 1
  · obtain ⟨text, rfl⟩ := List.length_eq_one_iff.1 hl
    by_cases ht : text = ""
    · rw [empty (by rw [ht])] at read
      cases read
    · obtain ⟨error, -, he⟩ := one text rfl ht
      rw [he] at read
      cases read
  · rw [other hl] at read
    cases read

end Shape

/-- The values of a type of elements are elements. -/
theorem RecordOf.elementOf {shape : Shape} {value : Value} (h : RecordOf shape value)
    (hs : shape.isElement = true) : ElementOf shape value := by
  induction h with
  | single h => exact h
  | newtypeStruct _ ih => exact .newtypeStruct (ih hs)
  | _ => cases hs

/-- An optional element is read back unless it looks absent. -/
theorem ElementOf.readRecord_option_iff {shape : Shape} {value : Value} {fields : List String}
    (h : ElementOf shape value) (hs : shape.isElement = true) (hf : value.fields = .ok fields) :
    (Shape.option shape).readRecord fields = .ok (.present value) ↔ (Value.present value).looksAbsent = false := by
  obtain ⟨text, ht, read⟩ := (ElementOf.present h).exists_fieldText hs
  have single : value.fields = .ok [text] := by
    rw [h.fields_eq, show value.fieldText = .ok text from ht]
    rfl
  obtain rfl : fields = [text] := Except.ok.inj (hf.symm.trans single)
  have element : (Shape.option shape).isElement = true := hs
  rw [Shape.readRecord_singleton element, read]

/-- **Optional records do not come back.** The fields of an optional value that is there are those of the value alone.
If its type is compound, they are read as an absent value where there is one empty field, are refused as one compound
field is where there is one other, and are refused for their number where there are not one. So a value of a flat type
is read back from within an optional value just when it is an element and does not look absent there. -/
theorem optional_read_back {shape : Shape} {value : Value} {fields : List String}
    (hf : (Value.present value).fields = .ok fields) :
    value.fields = .ok fields ∧
    (shape.isCompound = true →
      (fields = [""] → (Shape.option shape).readRecord fields = .ok .absent) ∧
      (∀ text, fields = [text] → text ≠ "" → ∃ error, shape.readField ⟨0, text⟩ = .error error ∧
        (Shape.option shape).readRecord fields = .error error) ∧
      (fields.length ≠ 1 → (Shape.option shape).readRecord fields = .error (.fieldCount 1 fields.length))) ∧
    (shape.isFlat = true → RecordOf shape value →
      ((Shape.option shape).readRecord fields = .ok (.present value) ↔ shape.isElement = true ∧
        ∀ inner, (Value.present value).Wraps (.present inner) → inner.fieldText ≠ .ok "")) := by
  have alone : value.fields = .ok fields := hf
  refine ⟨alone, fun compound => Shape.readRecord_option_of_isCompound compound fields, fun flat typed => ?_⟩
  rcases Shape.isElement_or_isCompound flat with element | compound
  · rw [(typed.elementOf element).readRecord_option_iff element alone, Value.looksAbsent_eq_false_iff]
    exact (and_iff_right element).symm
  · refine iff_of_false (Shape.readRecord_option_ne_present compound fields value) fun h => ?_
    rw [Shape.isElement_eq_false_of_isCompound compound] at h
    cases h.1

/-- A named sequence of one text, and the text by itself. -/
theorem optional_read_back_text :
    let sequence : Shape := .newtypeStruct "Tags" (.seq .text)
    let value : Value := .newtypeStruct "Tags" (.seq [.text "a"])
    ((Value.present value).fields = .ok ["a"] ∧ (Value.present (.text "a")).fields = .ok ["a"]) ∧
      (Shape.option sequence).readRecord ["a"] ≠ .ok (.present value) ∧
      (Shape.option .text).readRecord ["a"] = .ok (.present (.text "a")) := by
  intro sequence value
  have fields : (Value.present value).fields = .ok ["a"] := rfl
  have text : (Value.present (.text "a")).fields = .ok ["a"] := rfl
  have typed : RecordOf sequence value := .newtypeStruct (.seq (List.forall_mem_singleton.2 (.text "a")))
  refine ⟨⟨fields, text⟩, fun read => ?_, ?_⟩
  · cases (((optional_read_back fields).2.2 (by decide) typed).1 read).1
  · refine ((optional_read_back text).2.2 (by decide) (.single (.text "a"))).2 ⟨rfl, ?_⟩
    exact (Value.present (.text "a")).looksAbsent_eq_false_iff.1 (by decide)

/-- A pair is written from within an optional value, and read back by itself, but not as an optional one. -/
theorem optional_pair_refused :
    let shape : Shape := .tuple [.int .u8, .int .u8]
    let value : Value := .tuple [.int .u8 1, .int .u8 2]
    RecordOf shape value ∧ (Value.present value).fields = .ok ["1", "2"] ∧ shape.readRecord ["1", "2"] = .ok value ∧
      (Shape.option shape).readRecord ["1", "2"] = .error (.fieldCount 1 2) := by
  intro shape value
  exact ⟨.tuple (.cons (.int (by decide)) (.cons (.int (by decide)) .nil)), by rfl, by rfl, by rfl⟩

end DelimitedText
