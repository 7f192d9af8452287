import DelimitedText.Value.Basic

/-!
# Types that fields are read as

A `Shape` says what is asked of the fields of a record, or of the text of one field.
-/

namespace DelimitedText

/-- A requested type. -/
inductive Shape where
  | bool
  | int (type : IntType)
  | float (type : FloatType)
  | char
  | text
  /-- the bytes of a text -/
  | bytes
  /-- bytes without a zero among them -/
  | cstring
  | unit
  | unitStruct (name : String)
  /-- anything at all, of which nothing is kept -/
  | ignored
  /-- whatever there is -/
  | any
  /-- a map, which no record and no field is -/
  | map
  | option (shape : Shape)
  | seq (shape : Shape)
  /-- the first elements of a sequence, at most `limit` of them, and the number of those left -/
  | leading (limit : Nat) (shape : Shape)
  | tuple (shapes : List Shape)
  | tupleStruct (name : String) (shapes : List Shape)
  | struct (name : String) (members : List (String × Shape))
  /-- a named type around one value -/
  | newtypeStruct (name : String) (shape : Shape)
  | enum (name : String) (variants : List (String × VariantKind))
  /-- a type that refuses whatever there is, with its reason -/
  | refusing (reason : String)
  deriving Repr

instance : Inhabited Shape := ⟨.unit⟩

end DelimitedText
