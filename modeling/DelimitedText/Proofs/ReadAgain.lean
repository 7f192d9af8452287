import DelimitedText.Proofs.OptionalRecord

/-!
# Values that were read

A value that was read survives: it is written with as many fields as it was read from, and these are read as the same
value (`read_again`). The one obstacle to reading back, an optional value that is there and has the empty text, is
never read: an empty field is an absent value. What was read from a field is written with the text of that field, but
for a number, which is written with the fewest digits (`Respelled`). Around a compound value an optional one is only
ever read as absent (`Shape.eq_absent_of_readRecord_option`), and so optional records survive as well.
-/

namespace DelimitedText

/-- The second text is the first, or spells the integer that the first spells in its own way. -/
def Respelled (text text' : String) : Prop :=
  text' = text ∨ ∃ (type : IntType) (n : Int), type.parse? text = some n ∧ text' = toString n

/-! ## One element -/

/-- A number that is read is in the range of its type. -/
theorem IntType.contains_of_parse? {type : IntType} {text : String} {n : Int} (h : type.parse? text = some n) :
    type.contains n = true :=
  (Option.filter_eq_some_iff.1 h).2

/-- A text that is not empty is not written as an empty one. -/
theorem Respelled.ne_empty {text text' : String} (h : Respelled text text') (some_ : text ≠ "") : text' ≠ "" := by
  rcases h with rfl | ⟨type, n, read, rfl⟩
  · exact some_
  · intro empty
    have again := IntType.parse?_toString (IntType.contains_of_parse? read)
    rw [empty] at again
    cases type <;> cases again

/-- What a value was read from, and what it is written as. -/
structure ElementRead (shape : Shape) (text : String) (value : Value) : Prop where
  typed : ElementOf shape value
  there : value.looksAbsent = false
  written : ∃ text', value.fieldText = .ok text' ∧ Respelled text text'

namespace Field

variable {field : Field}

theorem expect_eq_ok {α : Type} {name : String} {value? : Option α} {value : α}
    (h : field.expect name value? = .ok value) : value? = some value := by
  cases value? with
  | some found => exact congrArg some (Except.ok.inj h)
  | none => cases h

theorem text_of_bool {b : Bool} (h : field.bool = .ok b) : field.text = if b then "true" else "false" := by
  have spelled := expect_eq_ok h
  split_ifs at spelled with yes no
  · cases spelled
    exact yes
  · cases spelled
    exact no

theorem text_of_char {c : Char} (h : field.char = .ok c) : field.text = String.singleton c := by
  have spelled := expect_eq_ok h
  split at spelled
  · rename_i c' single
    cases spelled
    rw [← String.ofList_toList (s := field.text), single]
    rfl
  · cases spelled

theorem text_of_unit {u : Unit} (h : field.unit = .ok u) : field.text = "" := by
  have spelled := expect_eq_ok h
  split_ifs at spelled with empty
  exact empty

theorem text_of_variant {variants : List (String × VariantKind)} {name : String}
    (h : field.variant variants = .ok name) : field.text = name ∧ (name, .unit) ∈ variants := by
  unfold variant at h
  split at h
  · cases h
  · rename_i name' found
    cases h
    have same : (name == field.text) = true := by simpa using List.find?_some found
    exact ⟨(beq_iff_eq.1 same).symm, List.mem_of_find?_eq_some found⟩
  · cases h

end Field

/-- **One element.** What is read from a field is an element of the type, does not look absent, and is written with the
text of the field, or as the number that it spells. -/
theorem elementRead_of_readField {shape : Shape} {field : Field} {value : Value} (hs : shape.isElement = true)
    (h : shape.readField field = .ok value) : ElementRead shape field.text value := by
  fun_induction Shape.isElement shape generalizing value with
  | case1 =>
    obtain ⟨b, hb, rfl⟩ := exists_of_map_eq_ok h
    exact ⟨.bool b, rfl, _, rfl, .inl (Field.text_of_bool hb).symm⟩
  | case2 =>
    obtain ⟨c, hc, rfl⟩ := exists_of_map_eq_ok h
    exact ⟨.char c, rfl, _, rfl, .inl (Field.text_of_char hc).symm⟩
  | case3 =>
    cases h
    exact ⟨.text _, rfl, _, rfl, .inl rfl⟩
  | case4 =>
    obtain ⟨u, hu, rfl⟩ := exists_of_map_eq_ok h
    exact ⟨.unit, rfl, _, rfl, .inl (Field.text_of_unit hu).symm⟩
  | case5 name =>
    obtain ⟨u, hu, rfl⟩ := exists_of_map_eq_ok h
    exact ⟨.unitStruct name, rfl, _, rfl, .inl (Field.text_of_unit hu).symm⟩
  | case6 type =>
    obtain ⟨n, hn, rfl⟩ := exists_of_map_eq_ok h
    have spelled := Field.expect_eq_ok hn
    have width : type.bits ≤ 64 := by simpa using hs
    refine ⟨.int (IntType.contains_of_parse? spelled), rfl, toString n, ?_, .inr ⟨type, n, spelled, rfl⟩⟩
    rw [Value.fieldText, if_pos width]
  | case7 name variants =>
    obtain ⟨variant, hv, rfl⟩ := exists_of_map_eq_ok h
    obtain ⟨text, mem⟩ := Field.text_of_variant hv
    exact ⟨.variant mem, rfl, _, rfl, .inl text.symm⟩
  | case8 shape ih =>
    rw [Shape.readField] at h
    split at h
    · rename_i empty
      cases h
      exact ⟨.absent shape, rfl, _, rfl, .inl empty.symm⟩
    · rename_i some_
      obtain ⟨inner, hi, rfl⟩ := exists_of_map_eq_ok h
      obtain ⟨typed, there, text, written, respelled⟩ := ih hs hi
      refine ⟨.present typed, ?_, text, written, respelled⟩
      rw [Value.looksAbsent, written, there, Bool.or_false]
      -- the empty text is read as an absent value, so the text of this one is not empty
      simpa [Except.toOption] using respelled.ne_empty some_
  | case9 name shape ih =>
    obtain ⟨inner, hi, rfl⟩ := exists_of_map_eq_ok h
    obtain ⟨typed, there, written⟩ := ih hs hi
    exact ⟨.newtypeStruct typed, there, written⟩
  | case10 => cases hs

/-! ## Elements beside each other -/

/-- What elements were read from, and what they are written as. -/
structure ElementsRead (shapes : List Shape) (texts : List String) (items : List Value) : Prop where
  typed : List.Forall₂ ElementOf shapes items
  there : ∀ item ∈ items, item.looksAbsent = false
  written : ∃ texts', items.mapM Value.fieldText = .ok texts' ∧ List.Forall₂ Respelled texts texts'

theorem elementsRead_of_readEach {index : Nat} {cells : List (Shape × String)} {items : List Value}
    (hs : ∀ cell ∈ cells, cell.1.isElement = true) (h : Shape.readEach index cells = .ok items) :
    ElementsRead (cells.map Prod.fst) (cells.map Prod.snd) items := by
  induction cells generalizing index items with
  | nil =>
    cases h
    exact ⟨.nil, fun item hm => absurd hm List.not_mem_nil, [], rfl, .nil⟩
  | cons cell cells ih =>
    cases items with
    | nil => cases Shape.length_readEach h
    | cons item items =>
      obtain ⟨first, rest⟩ := List.forall_mem_cons.1 hs
      obtain ⟨read, reads⟩ := Shape.readEach_cons_eq_ok_iff.1 h
      obtain ⟨typed, there, text, written, respelled⟩ := elementRead_of_readField first read
      obtain ⟨types, theres, texts, writtens, respelleds⟩ := ih rest reads
      refine ⟨.cons typed types, List.forall_mem_cons.2 ⟨there, theres⟩, text :: texts, ?_, .cons respelled respelleds⟩
      rw [mapM_cons_of_ok written, writtens]
      rfl

theorem elementsRead_of_readExactly {shapes : List Shape} {fields : List String} {items : List Value}
    (hs : ∀ shape ∈ shapes, shape.isElement = true) (h : Shape.readExactly shapes fields = .ok items) :
    ElementsRead shapes fields items := by
  rw [Shape.readExactly] at h
  split at h
  · rename_i length
    have each := elementsRead_of_readEach (fun cell hc => hs _ (List.of_mem_zip hc).1) h
    rwa [List.map_fst_zip (Nat.le_of_eq length), List.map_snd_zip (Nat.le_of_eq length.symm)] at each
  · cases h

theorem elementsRead_of_readAll {shape : Shape} {fields : List String} {items : List Value}
    (hs : shape.isElement = true) (h : shape.readAll fields = .ok items) :
    ElementsRead (List.replicate fields.length shape) fields items := by
  have replicated : ∀ s ∈ List.replicate fields.length shape, s.isElement = true := by
    intro s hm
    rw [List.eq_of_mem_replicate hm, hs]
  apply elementsRead_of_readExactly replicated
  rw [Shape.readExactly, if_pos List.length_replicate, ← map_prodMk_eq_zip]
  exact h

/-! ## Records -/

/-- What a value was read from, and what it is written as. -/
structure RecordRead (shape : Shape) (fields : List String) (value : Value) : Prop where
  typed : RecordOf shape value
  there : ∀ element ∈ value.elements, element.looksAbsent = false
  written : ∃ texts, value.fields = .ok texts ∧ List.Forall₂ Respelled fields texts

namespace Shape

variable {shape : Shape} {fields : List String} {value : Value}

/-- An element asks for a single field. -/
theorem readRecord_of_length_ne_one (hs : shape.isElement = true) (h : fields.length ≠ 1) :
    shape.readRecord fields = .error (.fieldCount 1 fields.length) := by
  have single : ∀ s : Shape, s.readSingle fields = .error (.fieldCount 1 fields.length) := by
    intro s
    unfold readSingle
    split
    · exact absurd rfl h
    · rfl
  fun_induction isElement shape with
  | case9 name shape ih => rw [readRecord, ih hs]; rfl
  | case10 => cases hs
  | _ => exact single _

theorem exists_readField_of_readRecord (hs : shape.isElement = true) (h : shape.readRecord fields = .ok value) :
    ∃ text, fields = [text] ∧ shape.readField ⟨0, text⟩ = .ok value := by
  have one : fields.length = 1 := by
    by_contra other
    rw [readRecord_of_length_ne_one hs other] at h
    cases h
  obtain ⟨text, rfl⟩ := List.length_eq_one_iff.1 one
  exact ⟨text, rfl, (readRecord_singleton hs text).symm.trans h⟩

end Shape

/-- Elements that are put together to a record. -/
theorem ElementsRead.record {shapes : List Shape} {fields : List String} {items : List Value} {shape : Shape}
    {value : Value} (h : ElementsRead shapes fields items) (typed : RecordOf shape value)
    (elements : value.elements = items) (made : value.items? = some items) : RecordRead shape fields value :=
  ⟨typed, by rw [elements]; exact h.there, by rw [Value.fields_of_items made]; exact h.written⟩

/-- What is read as elements beside each other is put together to a value of the type. -/
theorem recordRead_of_isCompound {shape : Shape} {fields : List String} {value : Value} (hs : shape.isFlat = true)
    (hc : shape.isCompound = true) (h : shape.readRecord fields = .ok value) : RecordRead shape fields value := by
  fun_induction Shape.isCompound shape generalizing value with
  | case1 shape =>
    obtain ⟨items, hi, rfl⟩ := exists_of_map_eq_ok h
    have read := elementsRead_of_readAll hs hi
    refine read.record (.seq fun item hm => ?_) rfl rfl
    obtain ⟨i, at_⟩ := List.mem_iff_getElem?.1 hm
    obtain ⟨shape', hs', typed⟩ := (forall₂_iff_getElem?.1 read.typed).2 i item at_
    rwa [List.eq_of_mem_replicate (List.mem_of_getElem? hs')] at typed
  | case2 shapes =>
    obtain ⟨items, hi, rfl⟩ := exists_of_map_eq_ok h
    have read := elementsRead_of_readExactly (List.all_eq_true.1 hs) hi
    exact read.record (.tuple read.typed) rfl rfl
  | case3 name shapes =>
    obtain ⟨items, hi, rfl⟩ := exists_of_map_eq_ok h
    have read := elementsRead_of_readExactly (List.all_eq_true.1 hs) hi
    exact read.record (.tupleStruct read.typed) rfl rfl
  | case4 name members =>
    obtain ⟨items, hi, rfl⟩ := exists_of_map_eq_ok h
    have read := elementsRead_of_readExactly (Shape.isElement_of_isFlat_struct hs) hi
    have length : items.length = (members.map Prod.fst).length := by
      rw [Shape.length_readExactly hi, List.length_map, List.length_map]
    have values : ((members.map Prod.fst).zip items).map Prod.snd = items := List.map_snd_zip (Nat.le_of_eq length)
    refine read.record (.struct (List.map_fst_zip (Nat.le_of_eq length.symm)) ?_) values (congrArg some values)
    rw [values]
    exact read.typed
  | case5 name shape ih =>
    obtain ⟨inner, hi, rfl⟩ := exists_of_map_eq_ok h
    obtain ⟨typed, there, written⟩ := ih hs hc hi
    exact ⟨.newtypeStruct typed, there, written⟩
  | case6 => cases hc

/-- **Records.** What is read from a record is a value of the type, none of its elements looks absent, and it is written
with the texts of the fields, or as the numbers that they spell. -/
theorem recordRead_of_readRecord {shape : Shape} {fields : List String} {value : Value} (hs : shape.isFlat = true)
    (h : shape.readRecord fields = .ok value) : RecordRead shape fields value := by
  rcases Shape.isElement_or_isCompound hs with element | compound
  · obtain ⟨text, rfl, read⟩ := Shape.exists_readField_of_readRecord element h
    obtain ⟨typed, there, text', written, respelled⟩ := elementRead_of_readField element read
    obtain ⟨inner, elements, same⟩ := typed.exists_elements_eq
    refine ⟨.single typed, ?_, [text'], ?_, .cons respelled .nil⟩
    · rw [elements, List.forall_mem_singleton, same, there]
    · rw [typed.fields_eq, written]
      rfl
  · exact recordRead_of_isCompound hs compound h

/-- A value of a flat type is written as it was read, but for its numbers, and read as itself again. -/
theorem exists_fields_of_readRecord {shape : Shape} {fields : List String} {value : Value} (hs : shape.isFlat = true)
    (h : shape.readRecord fields = .ok value) : ∃ texts, value.fields = .ok texts ∧ texts.length = fields.length ∧
      shape.readRecord texts = .ok value ∧ List.Forall₂ Respelled fields texts := by
  obtain ⟨typed, there, texts, written, respelled⟩ := recordRead_of_readRecord hs h
  obtain ⟨texts', written', -, read⟩ := typed.exists_fields hs
  obtain rfl : texts = texts' := Except.ok.inj (written.symm.trans written')
  exact ⟨texts, written, respelled.length_eq.symm, read.2 there, respelled⟩

/-! ## Optional records -/

namespace Shape

variable {shape : Shape}

/-- A type without the optional types and names around it. -/
def unwrapped : Shape → Shape
  | .option shape => shape.unwrapped
  | .newtypeStruct _ shape => shape.unwrapped
  | shape => shape

/-- What is made of elements is not read from a field that is not empty, whatever stands around it. -/
theorem exists_readField_eq_error_of_ne_empty (hs : shape.unwrapped.isFlat = true) (he : shape.isElement = false)
    {field : Field} (some_ : field.text ≠ "") : ∃ error, shape.readField field = .error error := by
  fun_induction unwrapped shape with
  | case1 shape ih =>
    obtain ⟨error, read⟩ := ih hs he
    exact ⟨error, by rw [readField, if_neg some_, read]; rfl⟩
  | case2 name shape ih =>
    obtain ⟨error, read⟩ := ih hs he
    exact ⟨error, by rw [readField, read]; rfl⟩
  | case3 shape =>
    rcases isElement_or_isCompound hs with element | compound
    · rw [element] at he
      cases he
    · exact exists_readField_eq_error compound field

/-- Of the optional values of a compound type only the absent one is read. -/
theorem eq_absent_of_readRecord_option (hs : shape.unwrapped.isFlat = true) (he : shape.isElement = false)
    {fields : List String} {value : Value} (h : (option shape).readRecord fields = .ok value) :
    fields = [""] ∧ value = .absent := by
  rw [readRecord_option] at h
  split at h
  · rename_i text
    split_ifs at h with empty
    · cases h
      exact ⟨by rw [empty], rfl⟩
    · have some_ : (Field.mk 0 text).text ≠ "" := empty
      obtain ⟨error, read⟩ := exists_readField_eq_error_of_ne_empty hs he some_
      rw [read] at h
      cases h
  · cases h

end Shape

/-- **Values that were read survive.** A value of a flat type, with any optional types and names around it, that was
read from the fields of a record is written with as many fields, each as it was or with its number in the fewest digits,
and these fields are read as the same value. -/
theorem read_again {shape : Shape} {fields : List String} {value : Value} (hs : shape.unwrapped.isFlat = true)
    (h : shape.readRecord fields = .ok value) : ∃ texts, value.fields = .ok texts ∧ texts.length = fields.length ∧
      shape.readRecord texts = .ok value ∧ List.Forall₂ Respelled fields texts := by
  fun_induction Shape.unwrapped shape generalizing value with
  | case1 shape ih =>
    cases he : shape.isElement with
    | true =>
      have flat : (Shape.option shape).isFlat = true := he
      exact exists_fields_of_readRecord flat h
    | false =>
      obtain ⟨rfl, rfl⟩ := Shape.eq_absent_of_readRecord_option hs he h
      exact ⟨[""], rfl, rfl, h, .cons (.inl rfl) .nil⟩
  | case2 name shape ih =>
    obtain ⟨inner, hi, rfl⟩ := exists_of_map_eq_ok h
    obtain ⟨texts, written, length, read, respelled⟩ := ih hs hi
    exact ⟨texts, written, length, by rw [Shape.readRecord, read]; rfl, respelled⟩
  | case3 shape => exact exists_fields_of_readRecord hs h

/-- Numbers with signs and zeros in front of them, a unit, and an empty field for a value in two optional ones. -/
theorem read_again_numbers :
    let shape : Shape := .newtypeStruct "Sheet" (.tuple [.int .i8, .option (.newtypeStruct "Count" (.int .u64)), .unit,
      .option (.option .text), .enum "Kind" [("Plain", .unit), ("", .unit)]])
    let value : Value := .newtypeStruct "Sheet" (.tuple [.int .i8 0, .present (.newtypeStruct "Count" (.int .u64 7)),
      .unit, .absent, .unitVariant "Kind" ""])
    (shape.unwrapped.isFlat = true ∧ shape.readRecord ["-0", "+007", "", "", ""] = .ok value) ∧
      shape.readRecord ["0", "7", "", "", ""] = .ok value := by
  intro shape value
  have flat : shape.unwrapped.isFlat = true := by decide
  have read : shape.readRecord ["-0", "+007", "", "", ""] = .ok value := by rfl
  obtain ⟨texts, written, -, again, -⟩ := read_again flat read
  have texts_eq : value.fields = .ok ["0", "7", "", "", ""] := by rfl
  obtain rfl : texts = ["0", "7", "", "", ""] := Except.ok.inj (written.symm.trans texts_eq)
  exact ⟨⟨flat, read⟩, again⟩

end DelimitedText
