import DelimitedText.Proofs.FixedArity

/-!
# Flat types

A flat type is a compound type of elements that have the text of one field each, or a single such element; there may be
names around it (`Shape.isElement`, `Shape.isFlat`). `ElementOf` and `RecordOf` say which values a type has.

Every element has a text, and that reads back as the element unless the element looks absent: an optional value in it is
there and is written like one that is not (`Value.looksAbsent`, `ElementOf.exists_fieldText`). Hence every value of a
flat type has fields, and these read back as the value iff none of its elements looks absent (`RecordOf.exists_fields`,
`fields_read_back_iff`).
-/

namespace DelimitedText

/-! ## Integers -/

namespace IntType

theorem digitsValue?_toDigits (n : Nat) : digitsValue? (Nat.toDigits 10 n) = some n := by
  have digits : (Nat.toDigits 10 n).all Char.isDigit = true := by
    rw [List.all_eq_true]
    intro c hc
    exact Nat.isDigit_of_mem_toDigits (by decide) (by decide) hc
  unfold digitsValue?
  rw [digits, List.isEmpty_eq_false_iff.2 Nat.toDigits_ne_nil, Nat.ofDigitChars_ten_toDigits]
  rfl

/-- Digits have no sign in front of them. -/
theorem signedValue?_toDigits (t : IntType) (n : Nat) : t.signedValue? (Nat.toDigits 10 n) = some (n : Int) := by
  have digit : ∀ c tail, Nat.toDigits 10 n = c :: tail → c.isDigit = true := by
    intro c tail h
    exact Nat.isDigit_of_mem_toDigits (b := 10) (n := n) (by decide) (by decide) (by rw [h]; exact List.mem_cons_self)
  rw [signedValue?.eq_3, digitsValue?_toDigits]
  · rfl
  · intro tail h
    cases digit _ _ h
  · intro tail h
    cases digit _ _ h

theorem toList_toString_natCast (n : Nat) : (toString (n : Int)).toList = Nat.toDigits 10 n := by
  rw [Int.toString_eq_repr]
  show n.repr.toList = _
  rw [Nat.repr_eq_ofList_toDigits, String.toList_ofList]

theorem toList_toString_negSucc (n : Nat) : (toString (Int.negSucc n)).toList = '-' :: Nat.toDigits 10 (n + 1) := by
  rw [Int.toString_eq_repr]
  show ("-" ++ (n + 1).repr).toList = _
  rw [Nat.repr_eq_ofList_toDigits, String.toList_append, String.toList_ofList]
  simp

/-- A number of the type is read off its text. -/
theorem parse?_toString {t : IntType} {n : Int} (h : t.contains n = true) : t.parse? (toString n) = some n := by
  have spelled : t.signedValue? (toString n).toList = some n := by
    cases n with
    | ofNat n => exact (congrArg _ (toList_toString_natCast n)).trans (signedValue?_toDigits t n)
    | negSucc n =>
      have signed : t.isSigned = true := by
        rw [← Bool.not_eq_false]
        intro hu
        simp [contains, min, hu] at h
      rw [toList_toString_negSucc, signedValue?, if_pos signed, digitsValue?_toDigits]
      rfl
  rw [parse?, spelled, Option.filter_some, if_pos h]

end IntType

/-! ## Types -/

namespace Shape

/-- Whether the values of a type have the text of one field. Of an enumeration only the variants without content do. -/
def isElement : Shape → Bool
  | .bool | .char | .text | .unit | .unitStruct _ => true
  | .int type => type.bits ≤ 64
  | .enum _ variants => (variants.map Prod.fst).Nodup
  | .option shape => shape.isElement
  | .newtypeStruct _ shape => shape.isElement
  | _ => false

/-- Whether every value of a type is a record. -/
def isFlat : Shape → Bool
  | .seq shape => shape.isElement
  | .tuple shapes => shapes.all isElement
  | .tupleStruct _ shapes => shapes.all isElement
  | .struct _ members => members.all fun (_, shape) => shape.isElement
  | .newtypeStruct _ shape => shape.isFlat
  | shape => shape.isElement

theorem isElement_of_isFlat_struct {name : String} {members : List (String × Shape)}
    (h : (struct name members).isFlat = true) : ∀ shape ∈ members.map Prod.snd, shape.isElement = true := by
  intro shape hm
  obtain ⟨member, mem, rfl⟩ := List.mem_map.1 hm
  exact List.all_eq_true.1 h member mem

end Shape

/-! ## Values -/

/-- The values of a type of elements. -/
inductive ElementOf : Shape → Value → Prop where
  | bool (b : Bool) : ElementOf .bool (.bool b)
  | int {type : IntType} {n : Int} (range : type.contains n = true) : ElementOf (.int type) (.int type n)
  | char (c : Char) : ElementOf .char (.char c)
  | text (s : String) : ElementOf .text (.text s)
  | unit : ElementOf .unit .unit
  | unitStruct (name : String) : ElementOf (.unitStruct name) (.unitStruct name)
  | variant {name variant : String} {variants : List (String × VariantKind)} (mem : (variant, .unit) ∈ variants) :
      ElementOf (.enum name variants) (.unitVariant name variant)
  | absent (shape : Shape) : ElementOf (.option shape) .absent
  | present {shape : Shape} {value : Value} (h : ElementOf shape value) : ElementOf (.option shape) (.present value)
  | newtypeStruct {name : String} {shape : Shape} {value : Value} (h : ElementOf shape value) :
      ElementOf (.newtypeStruct name shape) (.newtypeStruct name value)

/-- The values of a flat type. -/
inductive RecordOf : Shape → Value → Prop where
  | single {shape : Shape} {value : Value} (h : ElementOf shape value) : RecordOf shape value
  | seq {shape : Shape} {items : List Value} (h : ∀ item ∈ items, ElementOf shape item) :
      RecordOf (.seq shape) (.seq items)
  | tuple {shapes : List Shape} {items : List Value} (h : List.Forall₂ ElementOf shapes items) :
      RecordOf (.tuple shapes) (.tuple items)
  | tupleStruct {name : String} {shapes : List Shape} {items : List Value} (h : List.Forall₂ ElementOf shapes items) :
      RecordOf (.tupleStruct name shapes) (.tupleStruct name items)
  | struct {name : String} {members : List (String × Shape)} {fields : List (String × Value)}
      (names : fields.map Prod.fst = members.map Prod.fst)
      (h : List.Forall₂ ElementOf (members.map Prod.snd) (fields.map Prod.snd)) :
      RecordOf (.struct name members) (.struct name fields)
  | newtypeStruct {name : String} {shape : Shape} {value : Value} (h : RecordOf shape value) :
      RecordOf (.newtypeStruct name shape) (.newtypeStruct name value)

namespace Value

/-- Whether an optional value is there and has the empty text, like one that is not there. -/
def looksAbsent : Value → Bool
  | .present value => value.fieldText.toOption = some "" || value.looksAbsent
  | .newtypeStruct _ value => value.looksAbsent
  | _ => false

/-- The values that get a field each. -/
def elements : Value → List Value
  | .seq items => items
  | .tuple items => items
  | .tupleStruct _ items => items
  | .struct _ members => members.map Prod.snd
  | .newtypeStruct _ value => value.elements
  | value => [value]

/-- `value.Wraps inner` says that `value` is `inner`, or has it inside optional values and named types. -/
inductive Wraps : Value → Value → Prop where
  | self (value : Value) : Wraps value value
  | present {value inner : Value} (h : Wraps value inner) : Wraps (.present value) inner
  | newtypeStruct {name : String} {value inner : Value} (h : Wraps value inner) :
      Wraps (.newtypeStruct name value) inner

/-- A value looks absent iff it wraps an optional value that is there and has the empty text. -/
theorem looksAbsent_eq_false_iff (value : Value) :
    value.looksAbsent = false ↔ ∀ inner, value.Wraps (.present inner) → inner.fieldText ≠ .ok "" := by
  have text : ∀ result : Except Error String, result.toOption = some "" ↔ result = .ok "" := by
    intro result
    cases result <;> simp [Except.toOption]
  fun_induction looksAbsent value with
  | case1 value ih =>
    rw [Bool.or_eq_false_iff, decide_eq_false_iff_not, text]
    constructor
    · rintro ⟨first, rest⟩ inner hw
      cases hw with
      | self => exact first
      | present hw => exact ih.1 rest inner hw
    · intro h
      exact ⟨h value (.self _), ih.2 fun inner hw => h inner (.present hw)⟩
  | case2 name value ih =>
    constructor
    · intro h inner hw
      cases hw with
      | newtypeStruct hw => exact ih.1 h inner hw
    · intro h
      exact ih.2 fun inner hw => h inner (.newtypeStruct hw)
  | case3 value hp hn =>
    refine iff_of_true rfl fun inner hw => ?_
    cases hw with
    | self => exact absurd rfl (hp inner)
    | present => exact absurd rfl (hp _)
    | newtypeStruct => exact absurd rfl (hn _ _)

end Value

/-! ## One element -/

/-- Among distinct names each is found. -/
theorem find?_of_nodup {α : Type} {entries : List (String × α)} {name : String} {a : α}
    (hn : (entries.map Prod.fst).Nodup) (hm : (name, a) ∈ entries) :
    entries.find? (fun entry => entry.1 == name) = some (name, a) := by
  induction entries with
  | nil => cases hm
  | cons entry entries ih =>
    obtain ⟨fresh, hn⟩ := List.nodup_cons.1 hn
    rcases List.mem_cons.1 hm with rfl | hm
    · simp
    · have other : entry.1 ≠ name := by
        rintro rfl
        exact fresh (List.mem_map.2 ⟨(entry.1, a), hm, rfl⟩)
      rw [List.find?_cons, beq_eq_false_iff_ne.2 other]
      exact ih hn hm

/-- Under a constructor the result is the same. -/
theorem map_eq_ok_iff {α β : Type} {f : α → β} (hf : Function.Injective f) {result : Except Error α} {a : α} :
    result.map f = .ok (f a) ↔ result = .ok a := by
  cases result with
  | error error => exact iff_of_false (fun h => by cases h) (fun h => by cases h)
  | ok b => exact (Except.ok.injEq _ _).to_iff.trans (hf.eq_iff.trans (Except.ok.injEq _ _).to_iff.symm)

namespace ElementOf

variable {shape : Shape} {value : Value}

/-- **One element.** It has a text, and that reads back as the element unless the element looks absent. -/
theorem exists_fieldText (h : ElementOf shape value) (hs : shape.isElement = true) :
    ∃ text, value.fieldText = .ok text ∧
      ∀ index, shape.readField ⟨index, text⟩ = .ok value ↔ value.looksAbsent = false := by
  induction h with
  | bool b =>
    refine ⟨_, rfl, fun index => iff_of_true ?_ rfl⟩
    cases b <;> rfl
  | @int type n range =>
    have width : type.bits ≤ 64 := by simpa [Shape.isElement] using hs
    refine ⟨toString n, by rw [Value.fieldText, if_pos width], fun index => iff_of_true ?_ rfl⟩
    rw [Shape.readField, Field.int, IntType.parse?_toString range]
    rfl
  | char c =>
    refine ⟨String.singleton c, rfl, fun index => iff_of_true ?_ rfl⟩
    rw [Shape.readField, Field.char, String.toList_singleton]
    rfl
  | text s => exact ⟨s, rfl, fun index => iff_of_true rfl rfl⟩
  | unit => exact ⟨"", rfl, fun index => iff_of_true rfl rfl⟩
  | unitStruct name => exact ⟨"", rfl, fun index => iff_of_true rfl rfl⟩
  | @variant name variant variants mem =>
    have found := find?_of_nodup (by simpa [Shape.isElement] using hs) mem
    refine ⟨variant, rfl, fun index => iff_of_true ?_ rfl⟩
    simp only [Shape.readField, Field.variant, found]
    rfl
  | absent shape => exact ⟨"", rfl, fun index => iff_of_true rfl rfl⟩
  | @present shape value h ih =>
    obtain ⟨text, ht, read⟩ := ih hs
    refine ⟨text, ht, fun index => ?_⟩
    rw [Shape.readField, Value.looksAbsent, ht]
    by_cases he : text = ""
    · -- the text of an absent value is read as one
      subst he
      exact iff_of_false (fun h => by cases h) (fun h => by cases h)
    · rw [if_neg he, map_eq_ok_iff fun a b => Value.present.inj, read]
      simp [Except.toOption, he]
  | @newtypeStruct name shape value h ih =>
    obtain ⟨text, ht, read⟩ := ih hs
    refine ⟨text, ht, fun index => ?_⟩
    rw [Shape.readField, map_eq_ok_iff fun a b h => (Value.newtypeStruct.inj h).2, read]
    rfl

/-- An element is a record of a single field. -/
theorem fields_eq (h : ElementOf shape value) : value.fields = value.fieldText.map ([·]) := by
  apply Value.fields_of_no_items
  induction h with
  | present _ ih => exact ih
  | newtypeStruct _ ih => exact ih
  | _ => rfl

theorem isElement_of_isFlat (h : ElementOf shape value) (hs : shape.isFlat = true) : shape.isElement = true := by
  induction h with
  | newtypeStruct _ ih => exact ih hs
  | _ => exact hs

/-- The one element of an element is what its names stand around. -/
theorem exists_elements_eq (h : ElementOf shape value) :
    ∃ element, value.elements = [element] ∧ element.looksAbsent = value.looksAbsent := by
  induction h with
  | newtypeStruct _ ih => exact ih
  | _ => exact ⟨_, rfl, rfl⟩

end ElementOf

/-- A single field is read as an element from the record that holds it. -/
theorem Shape.readRecord_singleton {shape : Shape} (hs : shape.isElement = true) (text : String) :
    shape.readRecord [text] = shape.readField ⟨0, text⟩ := by
  fun_induction Shape.isElement shape with
  | case9 name shape ih => rw [readRecord, readField, ih hs]
  | case10 => cases hs
  | _ => rfl

/-! ## Elements beside each other -/

namespace Shape

/-- Reading one element from each field succeeds iff each of them is read. -/
theorem readEach_cons_eq_ok_iff {index : Nat} {shape : Shape} {text : String} {rest : List (Shape × String)}
    {item : Value} {items : List Value} : readEach index ((shape, text) :: rest) = .ok (item :: items) ↔
      shape.readField ⟨index, text⟩ = .ok item ∧ readEach (index + 1) rest = .ok items := by
  rw [readEach_eq_mapM, readEach_eq_mapM, List.zipIdx_cons, mapM_eq_ok_iff, mapM_eq_ok_iff, List.forall₂_cons]

/-- There are as many values as fields. -/
theorem length_readEach {index : Nat} {cells : List (Shape × String)} {items : List Value}
    (h : readEach index cells = .ok items) : items.length = cells.length := by
  rw [readEach_eq_mapM, mapM_eq_ok_iff] at h
  rw [← h.length_eq, List.length_zipIdx]

/-- There are as many values as types. -/
theorem length_readExactly {shapes : List Shape} {fields : List String} {items : List Value}
    (h : readExactly shapes fields = .ok items) : items.length = shapes.length := by
  by_cases length : fields.length = shapes.length
  · exact ((readExactly_eq_ok_iff length).1 h).1
  · rw [readExactly, if_neg (Ne.symm length)] at h
    cases h

end Shape

/-- **Many elements.** They have a text each, and these read back as the elements unless one looks absent. -/
theorem exists_texts {shapes : List Shape} {items : List Value} (h : List.Forall₂ ElementOf shapes items)
    (hs : ∀ shape ∈ shapes, shape.isElement = true) :
    ∃ texts, items.mapM Value.fieldText = .ok texts ∧ texts.length = shapes.length ∧
      ∀ index, Shape.readEach index (shapes.zip texts) = .ok items ↔ ∀ item ∈ items, item.looksAbsent = false := by
  induction h with
  | nil => exact ⟨[], rfl, rfl, fun index => iff_of_true rfl fun item hm => by cases hm⟩
  | @cons shape item shapes items h _ ih =>
    obtain ⟨first, rest⟩ := List.forall_mem_cons.1 hs
    obtain ⟨text, ht, read⟩ := h.exists_fieldText first
    obtain ⟨texts, hts, length, reads⟩ := ih rest
    refine ⟨text :: texts, ?_, by rw [List.length_cons, List.length_cons, length], fun index => ?_⟩
    · rw [List.mapM_cons, ht, hts]
      rfl
    · rw [List.zip_cons_cons, Shape.readEach_cons_eq_ok_iff, read, reads, List.forall_mem_cons]

theorem exists_texts_readExactly {shapes : List Shape} {items : List Value} (h : List.Forall₂ ElementOf shapes items)
    (hs : ∀ shape ∈ shapes, shape.isElement = true) :
    ∃ texts, items.mapM Value.fieldText = .ok texts ∧ texts.length = items.length ∧
      (Shape.readExactly shapes texts = .ok items ↔ ∀ item ∈ items, item.looksAbsent = false) := by
  obtain ⟨texts, ht, length, read⟩ := exists_texts h hs
  exact ⟨texts, ht, length.trans h.length_eq, by rw [Shape.readExactly, if_pos length.symm, read]⟩

theorem map_prodMk_eq_zip {α β : Type} (a : α) : ∀ bs : List β, bs.map (a, ·) = (List.replicate bs.length a).zip bs
  | [] => rfl
  | b :: bs => by
    rw [List.map_cons, map_prodMk_eq_zip a bs, List.length_cons, List.replicate_succ, List.zip_cons_cons]

theorem exists_texts_readAll {shape : Shape} {items : List Value} (h : ∀ item ∈ items, ElementOf shape item)
    (hs : shape.isElement = true) :
    ∃ texts, items.mapM Value.fieldText = .ok texts ∧ texts.length = items.length ∧
      (shape.readAll texts = .ok items ↔ ∀ item ∈ items, item.looksAbsent = false) := by
  have each : List.Forall₂ ElementOf (List.replicate items.length shape) items := by
    induction items with
    | nil => exact .nil
    | cons item items ih =>
      obtain ⟨first, rest⟩ := List.forall_mem_cons.1 h
      exact .cons first (ih rest)
  obtain ⟨texts, ht, length, read⟩ := exists_texts each (fun s hm => by rw [List.eq_of_mem_replicate hm, hs])
  rw [List.length_replicate] at length
  exact ⟨texts, ht, length, by rw [Shape.readAll, map_prodMk_eq_zip, length, read]⟩

/-! ## Records -/

/-- The members of a struct are read as its fields iff their values are. -/
theorem zip_names_eq_iff {names : List String} {fields : List (String × Value)} {values : List Value}
    (hn : fields.map Prod.fst = names) (hl : values.length = names.length) :
    names.zip values = fields ↔ values = fields.map Prod.snd := by
  constructor
  · rintro rfl
    rw [List.map_snd_zip (Nat.le_of_eq hl)]
  · rintro rfl
    have whole := List.zip_unzip fields
    rwa [List.unzip_eq_map, hn] at whole

/-- A struct is read as the value with the right names iff the values of its members are read. -/
theorem Shape.readRecord_struct_eq_ok_iff {name : String} {members : List (String × Shape)}
    {fields : List (String × Value)} (names : fields.map Prod.fst = members.map Prod.fst) (texts : List String) :
    (struct name members).readRecord texts = .ok (.struct name fields) ↔
      readExactly (members.map Prod.snd) texts = .ok (fields.map Prod.snd) := by
  rw [readRecord]
  cases hr : readExactly (members.map Prod.snd) texts with
  | error error => exact iff_of_false (fun h => by cases h) (fun h => by cases h)
  | ok values =>
    have count : values.length = (members.map Prod.fst).length := by
      rw [length_readExactly hr, List.length_map, List.length_map]
    show Except.ok (Value.struct name _) = Except.ok (Value.struct name fields) ↔ _
    rw [Except.ok.injEq, Value.struct.injEq, zip_names_eq_iff names count, Except.ok.injEq]
    exact and_iff_right rfl

/-- **Records.** A value of a flat type has a field for each element, and these read back as the value unless one of the
elements looks absent. -/
theorem RecordOf.exists_fields {shape : Shape} {value : Value} (h : RecordOf shape value)
    (hs : shape.isFlat = true) : ∃ fields, value.fields = .ok fields ∧ fields.length = value.elements.length ∧
      (shape.readRecord fields = .ok value ↔ ∀ element ∈ value.elements, element.looksAbsent = false) := by
  induction h with
  | @single shape value h =>
    have element := h.isElement_of_isFlat hs
    obtain ⟨text, ht, read⟩ := h.exists_fieldText element
    obtain ⟨inner, elements, same⟩ := h.exists_elements_eq
    refine ⟨[text], by rw [h.fields_eq, ht]; rfl, by rw [elements]; rfl, ?_⟩
    rw [Shape.readRecord_singleton element, read, elements, List.forall_mem_singleton, same]
  | @seq shape items h =>
    obtain ⟨texts, ht, length, read⟩ := exists_texts_readAll h hs
    exact ⟨texts, ht, length, by rw [Shape.readRecord, map_eq_ok_iff fun a b => Value.seq.inj, read]; rfl⟩
  | @tuple shapes items h =>
    obtain ⟨texts, ht, length, read⟩ := exists_texts_readExactly h (List.all_eq_true.1 hs)
    exact ⟨texts, ht, length, by rw [Shape.readRecord, map_eq_ok_iff fun a b => Value.tuple.inj, read]; rfl⟩
  | @tupleStruct name shapes items h =>
    obtain ⟨texts, ht, length, read⟩ := exists_texts_readExactly h (List.all_eq_true.1 hs)
    refine ⟨texts, ht, length, ?_⟩
    rw [Shape.readRecord, map_eq_ok_iff fun a b h => (Value.tupleStruct.inj h).2, read]
    rfl
  | @struct name members fields names h =>
    obtain ⟨texts, ht, length, read⟩ := exists_texts_readExactly h (Shape.isElement_of_isFlat_struct hs)
    refine ⟨texts, ?_, length, (Shape.readRecord_struct_eq_ok_iff names texts).trans read⟩
    rw [List.mapM_map] at ht
    exact ht
  | @newtypeStruct name shape value h ih =>
    obtain ⟨fields, hf, length, read⟩ := ih hs
    refine ⟨fields, hf, length, ?_⟩
    rw [Shape.readRecord, map_eq_ok_iff fun a b h => (Value.newtypeStruct.inj h).2, read]
    rfl

theorem RecordOf.readRecord_fields {shape : Shape} {value : Value} (h : RecordOf shape value)
    (hs : shape.isFlat = true) (hl : ∀ element ∈ value.elements, element.looksAbsent = false) :
    ∃ fields, value.fields = .ok fields ∧ shape.readRecord fields = .ok value := by
  obtain ⟨fields, hf, -, read⟩ := h.exists_fields hs
  exact ⟨fields, hf, read.2 hl⟩

/-- **Records that are read back.** A value of a flat type has a field for each element, and the value is read back from
its fields just when no optional value in it is there and has the empty text. -/
theorem fields_read_back_iff {shape : Shape} {value : Value} (hs : shape.isFlat = true) (h : RecordOf shape value) :
    ∃ fields, value.fields = .ok fields ∧ fields.length = value.elements.length ∧
      (shape.readRecord fields = .ok value ↔ ∀ element ∈ value.elements, ∀ inner,
        element.Wraps (.present inner) → inner.fieldText ≠ .ok "") := by
  obtain ⟨fields, hf, length, read⟩ := h.exists_fields hs
  refine ⟨fields, hf, length, read.trans ?_⟩
  exact forall_congr' fun element => imp_congr_right fun _ => element.looksAbsent_eq_false_iff

/-- The least number of 64 bits, a quote inside two optional values, an empty text, and a variant among others. -/
theorem fields_read_back_nested :
    let shape : Shape := .newtypeStruct "Sheet" (.tupleStruct "Row" [.int .i64,
      .option (.newtypeStruct "Mark" (.option .char)), .text, .option .text,
      .enum "Kind" [("Plain", .unit), ("Rich", .newtype), ("", .unit)]])
    let value : Value := .newtypeStruct "Sheet" (.tupleStruct "Row" [.int .i64 (-9223372036854775808),
      .present (.newtypeStruct "Mark" (.present (.char '"'))), .text "", .absent, .unitVariant "Kind" ""])
    (shape.isFlat = true ∧ RecordOf shape value) ∧
      ∃ fields, value.fields = .ok fields ∧ shape.readRecord fields = .ok value := by
  intro shape value
  have flat : shape.isFlat = true := by decide
  have typed : RecordOf shape value := .newtypeStruct (.tupleStruct
    (.cons (.int (by decide)) (.cons (.present (.newtypeStruct (.present (.char _)))) (.cons (.text _)
      (.cons (.absent _) (.cons (.variant (by decide)) .nil))))))
  have there : ∀ element ∈ value.elements, element.looksAbsent = false := by decide
  obtain ⟨fields, hf, -, read⟩ := fields_read_back_iff flat typed
  refine ⟨⟨flat, typed⟩, fields, hf, read.2 fun element he => ?_⟩
  exact element.looksAbsent_eq_false_iff.1 (there element he)

end DelimitedText
