import DelimitedText.Proofs.FieldTexts
import DelimitedText.Shape.Read

/-!
# Records with a fixed number of fields

A tuple, a tuple struct and a struct have one type for each element (`Shape.layout?`). A record of any other number of
fields is refused before one of them is looked at. If the number is right, the element of each type is read from the
field at its place (`ReadsAt`), and the first that cannot be read decides; for the scalars of `Shape.scalarName?` the
error names the place, the type and the text (`readRecord_of_layout`).
-/

namespace DelimitedText

namespace Shape

/-- The types of the elements of a type with a fixed number of them, and what elements are put together to. -/
def layout? : Shape → Option (List Shape × (List Value → Value))
  | .tuple shapes => some (shapes, .tuple)
  | .tupleStruct name shapes => some (shapes, .tupleStruct name)
  | .struct name members =>
    some (members.map Prod.snd, fun items => .struct name ((members.map Prod.fst).zip items))
  | _ => none

/-- How errors call a number, a truth value or a character; optional values and named types around it have no say. -/
def scalarName? : Shape → Option String
  | .bool => some "bool"
  | .int .i8 => some "i8"
  | .int .i16 => some "i16"
  | .int .i32 => some "i32"
  | .int .i64 => some "i64"
  | .int .i128 => some "i128"
  | .int .u8 => some "u8"
  | .int .u16 => some "u16"
  | .int .u32 => some "u32"
  | .int .u64 => some "u64"
  | .int .u128 => some "u128"
  | .float .f32 => some "f32"
  | .float .f64 => some "f64"
  | .char => some "char"
  | .option shape => shape.scalarName?
  | .newtypeStruct _ shape => shape.scalarName?
  | _ => none

theorem scalarName?_int (type : IntType) : (Shape.int type).scalarName? = some type.name := by
  cases type <;> rfl

theorem scalarName?_float (type : FloatType) : (Shape.float type).scalarName? = some type.name := by
  cases type <;> rfl

end Shape

/-- The `i`-th type is read from the `i`-th field, with the given result. -/
def ReadsAt (shapes : List Shape) (fields : List String) (i : Nat) (result : Except Error Value) : Prop :=
  ∃ shape text, shapes[i]? = some shape ∧ fields[i]? = some text ∧ shape.readField ⟨i, text⟩ = result

/-! ## One element -/

theorem Field.expect_eq_error {α : Type} {field : Field} {name : String} {value? : Option α} {error : Error}
    (h : field.expect name value? = .error error) : error = .invalidField field.index name field.text := by
  cases value? with
  | some value => cases h
  | none => exact (Except.error.inj h).symm

/-- The error of a scalar names the field, the type and the text, whatever stands around the scalar. -/
theorem Shape.readField_scalar {shape : Shape} {name : String} (hs : shape.scalarName? = some name) {field : Field}
    {error : Error} (h : shape.readField field = .error error) :
    error = .invalidField field.index name field.text := by
  cases shape with
  | bool => cases hs; exact Field.expect_eq_error (map_eq_error_iff.1 h)
  | int type =>
    rw [scalarName?_int] at hs
    cases hs
    exact Field.expect_eq_error (map_eq_error_iff.1 h)
  | float type =>
    rw [scalarName?_float] at hs
    cases hs
    exact Field.expect_eq_error (map_eq_error_iff.1 h)
  | char => cases hs; exact Field.expect_eq_error (map_eq_error_iff.1 h)
  | option shape =>
    rw [scalarName?] at hs
    rw [readField] at h
    split at h
    · cases h
    · exact readField_scalar hs (map_eq_error_iff.1 h)
  | newtypeStruct _ shape =>
    rw [scalarName?] at hs
    rw [readField] at h
    exact readField_scalar hs (map_eq_error_iff.1 h)
  | _ => cases hs

/-! ## Element by element -/

/-- Reading one element from each field is a walk over the fields with their places. -/
theorem Shape.readEach_eq_mapM (index : Nat) (cells : List (Shape × String)) : readEach index cells =
    (cells.zipIdx index).mapM fun cell => cell.1.1.readField ⟨cell.2, cell.1.2⟩ := by
  induction cells generalizing index with
  | nil => rfl
  | cons cell cells ih =>
    rw [readEach, List.zipIdx_cons, List.mapM_cons, ih]

theorem readsAt_iff {shapes : List Shape} {fields : List String} {i : Nat} {result : Except Error Value} :
    ReadsAt shapes fields i result ↔ ∃ cell, (shapes.zip fields).zipIdx[i]? = some cell ∧
      cell.1.1.readField ⟨cell.2, cell.1.2⟩ = result := by
  constructor
  · rintro ⟨shape, text, hs, ht, read⟩
    have cell : (shapes.zip fields)[i]? = some (shape, text) := List.getElem?_zip_eq_some.2 ⟨hs, ht⟩
    exact ⟨((shape, text), i), by rw [List.getElem?_zipIdx, cell, Nat.zero_add]; rfl, read⟩
  · rintro ⟨cell, hc, read⟩
    rw [List.getElem?_zipIdx, Nat.zero_add] at hc
    obtain ⟨⟨shape, text⟩, hp, rfl⟩ := Option.map_eq_some_iff.1 hc
    obtain ⟨hs, ht⟩ := List.getElem?_zip_eq_some.1 hp
    exact ⟨shape, text, hs, ht, read⟩

section Exactly

variable {shapes : List Shape} {fields : List String} (length : fields.length = shapes.length)
include length

theorem Shape.readExactly_eq_mapM : readExactly shapes fields =
    (shapes.zip fields).zipIdx.mapM fun cell => cell.1.1.readField ⟨cell.2, cell.1.2⟩ := by
  rw [readExactly, if_pos length.symm, readEach_eq_mapM]

/-- Every element is read from the field at its place. -/
theorem Shape.readExactly_eq_ok_iff {items : List Value} : readExactly shapes fields = .ok items ↔
    items.length = shapes.length ∧
      ∀ (i : Nat) (item : Value), items[i]? = some item → ReadsAt shapes fields i (.ok item) := by
  have cells : (shapes.zip fields).zipIdx.length = shapes.length := by
    rw [List.length_zipIdx, List.length_zip, length, Nat.min_self]
  rw [readExactly_eq_mapM length, mapM_eq_ok_iff, forall₂_iff_getElem?, cells]
  simp only [readsAt_iff]

/-- The first element that cannot be read decides. -/
theorem Shape.readExactly_eq_error_iff {error : Error} : readExactly shapes fields = .error error ↔
    ∃ i, ReadsAt shapes fields i (.error error) ∧ ∀ j < i, ∃ item, ReadsAt shapes fields j (.ok item) := by
  rw [readExactly_eq_mapM length, mapM_eq_error_iff]
  constructor
  · rintro ⟨i, cell, hc, fails, before⟩
    refine ⟨i, readsAt_iff.2 ⟨cell, hc, fails⟩, fun j hj => ?_⟩
    obtain ⟨earlier, item, he, read⟩ := before j hj
    exact ⟨item, readsAt_iff.2 ⟨earlier, he, read⟩⟩
  · rintro ⟨i, fails, before⟩
    obtain ⟨cell, hc, fails⟩ := readsAt_iff.1 fails
    refine ⟨i, cell, hc, fails, fun j hj => ?_⟩
    obtain ⟨item, read⟩ := before j hj
    obtain ⟨earlier, he, read⟩ := readsAt_iff.1 read
    exact ⟨earlier, item, he, read⟩

end Exactly

/-! ## Records -/

/-- The elements are put together once all of them are read. -/
theorem Shape.readRecord_eq_map {shape : Shape} {shapes : List Shape} {build : List Value → Value}
    (h : shape.layout? = some (shapes, build)) (fields : List String) :
    shape.readRecord fields = (readExactly shapes fields).map build := by
  cases shape with
  | tuple _ => cases h; rfl
  | tupleStruct _ _ => cases h; rfl
  | struct _ _ => cases h; rfl
  | _ => cases h

/-- **Records with a fixed number of fields.** A record of another number of fields is refused, whatever it holds. A
record of the right number is read iff each element is read from its field, and it is refused as the first element is
that cannot be read; if that is a scalar, the error names its place, its type and its text. -/
theorem readRecord_of_layout {shape : Shape} {shapes : List Shape} {build : List Value → Value}
    (h : shape.layout? = some (shapes, build)) (fields : List String) :
    (fields.length ≠ shapes.length →
      shape.readRecord fields = .error (.fieldCount shapes.length fields.length)) ∧
    (fields.length = shapes.length →
      (∀ value, shape.readRecord fields = .ok value ↔ ∃ items, value = build items ∧ items.length = shapes.length ∧
        ∀ (i : Nat) (item : Value), items[i]? = some item → ReadsAt shapes fields i (.ok item)) ∧
      (∀ error, shape.readRecord fields = .error error ↔
        ∃ i, ReadsAt shapes fields i (.error error) ∧ ∀ j < i, ∃ item, ReadsAt shapes fields j (.ok item)) ∧
      ∀ (i : Nat) (scalar : Shape) (name : String) (error : Error), shapes[i]? = some scalar →
        scalar.scalarName? = some name → ReadsAt shapes fields i (.error error) →
        ∃ text, fields[i]? = some text ∧ error = .invalidField i name text) := by
  rw [Shape.readRecord_eq_map h]
  refine ⟨fun length => ?_, fun length => ⟨fun value => ?_, fun error => ?_, ?_⟩⟩
  · rw [Shape.readExactly, if_neg length.symm]
    rfl
  · simp only [← Shape.readExactly_eq_ok_iff length]
    constructor
    · intro h
      obtain ⟨items, read, rfl⟩ := exists_of_map_eq_ok h
      exact ⟨items, rfl, read⟩
    · rintro ⟨items, rfl, read⟩
      rw [read]
      rfl
  · rw [map_eq_error_iff, Shape.readExactly_eq_error_iff length]
  · rintro i scalar name error hs hn ⟨shape', text, hs', ht, fails⟩
    cases hs.symm.trans hs'
    exact ⟨text, ht, Shape.readField_scalar hn fails⟩

/-- A struct whose first number cannot be read; one whose second cannot, in two wrappers; and one field less. -/
theorem readRecord_of_layout_struct :
    let ratio : Shape := .newtypeStruct "Ratio" (.option (.float .f64))
    let shape : Shape := .struct "Row" [("id", .int .u8), ("ratio", ratio), ("kind", .enum "Kind" [("Http", .unit)])]
    let shapes : List Shape := [.int .u8, ratio, .enum "Kind" [("Http", .unit)]]
    let build : List Value → Value := fun items => .struct "Row" (["id", "ratio", "kind"].zip items)
    shape.layout? = some (shapes, build) ∧
      shape.readRecord ["256", "half", "Http"] = .error (.invalidField 0 "u8" "256") ∧
      shape.readRecord ["+7", "half", "Jdbc"] = .error (.invalidField 1 "f64" "half") ∧
      shape.readRecord ["x", "half"] = .error (.fieldCount 3 2) := by
  intro ratio shape shapes build
  have layout : shape.layout? = some (shapes, build) := rfl
  refine ⟨layout, ?_, ?_, (readRecord_of_layout layout ["x", "half"]).1 (by decide)⟩
  · obtain ⟨-, fails, named⟩ := (readRecord_of_layout layout ["256", "half", "Http"]).2 rfl
    obtain ⟨error, first⟩ : ∃ error, ReadsAt shapes ["256", "half", "Http"] 0 (.error error) :=
      ⟨_, .int .u8, "256", rfl, rfl, rfl⟩
    obtain ⟨text, ht, rfl⟩ := named 0 (.int .u8) "u8" error rfl rfl first
    cases ht
    exact (fails _).2 ⟨0, first, fun j hj => absurd hj (Nat.not_lt_zero j)⟩
  · obtain ⟨-, fails, named⟩ := (readRecord_of_layout layout ["+7", "half", "Jdbc"]).2 rfl
    obtain ⟨error, second⟩ : ∃ error, ReadsAt shapes ["+7", "half", "Jdbc"] 1 (.error error) :=
      ⟨_, ratio, "half", rfl, rfl, rfl⟩
    obtain ⟨text, ht, rfl⟩ := named 1 ratio "f64" error rfl rfl second
    cases ht
    refine (fails _).2 ⟨1, second, fun j hj => ?_⟩
    obtain rfl : j = 0 := by omega
    exact ⟨.int .u8 7, .int .u8, "+7", rfl, rfl, by rfl⟩

end DelimitedText
