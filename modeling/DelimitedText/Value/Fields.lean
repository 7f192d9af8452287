import DelimitedText.Error
import DelimitedText.Value.Basic

/-!
# Values as fields

`Value.fieldText` writes a value as the text of one field: scalars have one, an absent value and a unit have the empty
one, and compound values have none. `Value.fields` writes a value as a record: the elements of a compound value become
one field each, in order, and any other value is a record of a single field, by rules of its own for each kind of value.
Optional values and named types around a value are written as the value inside. The first element that fails decides.
-/

namespace DelimitedText

/-- The type of 64 bits with the same signs, in which an integer of at most as many bits is written as a record. A
wider type stays as it is. -/
def IntType.widened : IntType → IntType
  | .i8 | .i16 | .i32 | .i64 => .i64
  | .u8 | .u16 | .u32 | .u64 => .u64
  | wide => wide

namespace Value

/-- How messages call the variants of a kind that have content. -/
def variantShape (kind : VariantKind) : String :=
  kind.describe ++ "s"

/-- The text of a value within one field. -/
def fieldText : Value → Except Error String
  | .bool b => .ok (if b then "true" else "false")
  | .int type n => if type.bits ≤ 64 then .ok (toString n) else .error (Refusal.unsupportedInteger type.name).toError
  | .float type bits => .ok (type.format.text bits)
  | .char c => .ok (String.singleton c)
  | .text s => .ok s
  | .bytes _ => .error (.unsupportedShape "byte arrays")
  | .absent => .ok ""
  | .present value => value.fieldText
  | .unit => .ok ""
  | .unitStruct _ => .ok ""
  | .unitVariant _ variant => .ok variant
  | .dataVariant kind _ _ _ _ => .error (.unsupportedShape (variantShape kind))
  | .newtypeStruct _ value => value.fieldText
  | .seq _ => .error (.unsupportedShape "nested sequences")
  | .tuple _ => .error (.unsupportedShape "nested tuples")
  | .tupleStruct _ _ => .error (.unsupportedShape "nested tuple structs")
  | .map _ => .error (.unsupportedShape "nested maps")
  | .struct _ _ => .error (.unsupportedShape "nested structs")
  | .failing reason => .error (.custom reason)

/-- The fields of a value as a record. An integer is widened before it is written, and the keys of a map are not
written. -/
def fields : Value → Except Error (List String)
  | .bool b => (fieldText (.bool b)).map ([·])
  | .int type n =>
    match type.widened with
    | .i64 | .u64 => .ok [toString n]
    | wide => .error (Refusal.unsupportedInteger wide.name).toError
  | .float type bits => .ok [type.format.text bits]
  | .char c => .ok [String.singleton c]
  | .text s => .ok [s]
  | .bytes _ => .error (.unsupportedShape "byte arrays")
  | .absent => .ok [""]
  | .present value => value.fields
  | .unit => .ok [""]
  | .unitStruct _ => .ok [""]
  | .unitVariant _ variant => .ok [variant]
  | .dataVariant kind _ _ _ _ => .error (.unsupportedShape (variantShape kind))
  | .newtypeStruct _ value => value.fields
  | .seq items => items.mapM fieldText
  | .tuple items => items.mapM fieldText
  | .tupleStruct _ items => items.mapM fieldText
  | .map entries => entries.mapM fun (_, value) => value.fieldText
  | .struct _ members => members.mapM fun (_, value) => value.fieldText
  | .failing reason => .error (.custom reason)

end Value

end DelimitedText
