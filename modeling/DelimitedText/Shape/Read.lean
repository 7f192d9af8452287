import DelimitedText.Error
import DelimitedText.Shape.Basic
import DelimitedText.Text.Utf8

/-!
# Fields as values

`Field` is one field of a record with its index, which errors repeat. `Shape.readField` reads a requested type from one
field: scalars by their text, an empty text as an absent value, variants without content by name. `Shape.readRecord`
reads it from all fields of a record: compound types take one element from each field, in order, and those of a fixed
size ask for as many fields; a scalar asks for a single field.
-/

namespace DelimitedText

/-- One field of a record. -/
structure Field where
  index : Nat
  text : String
  deriving Repr, DecidableEq

/-! ## Scalars -/

namespace Field

/-- The value that the text spells, or the error that it spells none of the type. -/
def expect {α : Type} (field : Field) (type : String) : Option α → Except Error α
  | some value => .ok value
  | none => .error (.invalidField field.index type field.text)

/-- The text as a truth value. -/
def bool (field : Field) : Except Error Bool :=
  field.expect "bool" (if field.text = "true" then some true else if field.text = "false" then some false else none)

/-- The text as an integer. -/
def int (field : Field) (type : IntType) : Except Error Int :=
  field.expect type.name (type.parse? field.text)

/-- The text as the bits of a floating-point number. -/
def float (field : Field) (type : FloatType) : Except Error Nat :=
  field.expect type.name (type.format.parse? field.text)

/-- The text as a single character. -/
def char (field : Field) : Except Error Char :=
  field.expect "char" (match field.text.toList with | [c] => some c | _ => none)

/-- Nothing, if the text is empty. -/
def unit (field : Field) : Except Error Unit :=
  field.expect "empty field" (if field.text = "" then some () else none)

/-- The text as the name of a variant without content. -/
def variant (field : Field) (variants : List (String × VariantKind)) : Except Error String :=
  match variants.find? fun (name, _) => name == field.text with
  | none => .error (Refusal.unknownVariant field.text (variants.map Prod.fst)).toError
  | some (name, .unit) => .ok name
  | some (_, kind) => .error (Refusal.invalidType .unitVariant kind.describe).toError

/-- The error that a text is not what was asked for. -/
def refuse (field : Field) (wanted : String) : Error :=
  (Refusal.invalidType (.text field.text) wanted).toError

end Field

/-- Bytes as a value, unless there is a zero among them. -/
def nonzeroBytes (content : List UInt8) : Except Error Value :=
  match content.findIdx? (· == 0) with
  | some position => .error (Refusal.zeroByte position).toError
  | none => .ok (.bytes content)

/-! ## Types -/

namespace Shape

/-- Reads a type from one field. -/
def readField (field : Field) : Shape → Except Error Value
  | .bool => field.bool.map .bool
  | .int type => (field.int type).map (.int type)
  | .float type => (field.float type).map (.float type)
  | .char => field.char.map .char
  | .text | .any => .ok (.text field.text)
  | .bytes => .ok (.bytes (Utf8.encode field.text.toList))
  | .cstring => nonzeroBytes (Utf8.encode field.text.toList)
  | .unit => field.unit.map fun _ => .unit
  | .unitStruct name => field.unit.map fun _ => .unitStruct name
  | .ignored => .ok .unit
  | .map => .error (field.refuse "a map")
  | .option shape => if field.text = "" then .ok .absent else (shape.readField field).map .present
  | .seq _ | .leading _ _ => .error (.unsupportedShape "nested sequences")
  | .tuple shapes => .error (field.refuse ("a tuple of size " ++ toString shapes.length))
  | .tupleStruct name _ => .error (field.refuse ("tuple struct " ++ name))
  | .struct name _ => .error (field.refuse ("struct " ++ name))
  | .newtypeStruct name shape => (shape.readField field).map (.newtypeStruct name)
  | .enum name variants => (field.variant variants).map (.unitVariant name)
  | .refusing reason => .error (.custom reason)

/-- Reads one element from each field, the first of which has the given index. -/
def readEach (index : Nat) : List (Shape × String) → Except Error (List Value)
  | [] => .ok []
  | (shape, content) :: rest => do
    let value ← shape.readField ⟨index, content⟩
    let values ← readEach (index + 1) rest
    return value :: values

/-- Reads elements of one type, one from each field. -/
def readAll (shape : Shape) (fields : List String) : Except Error (List Value) :=
  readEach 0 (fields.map (shape, ·))

/-- Reads as many elements as there are types. -/
def readExactly (shapes : List Shape) (fields : List String) : Except Error (List Value) :=
  if shapes.length = fields.length then readEach 0 (shapes.zip fields)
  else .error (.fieldCount shapes.length fields.length)

/-- Reads a scalar from a record of a single field. -/
def readSingle (shape : Shape) : List String → Except Error Value
  | [content] => shape.readField ⟨0, content⟩
  | fields => .error (.fieldCount 1 fields.length)

/-- Reads a type from the fields of a record. -/
def readRecord (fields : List String) : Shape → Except Error Value
  | .any => .ok (.seq (fields.map .text))
  | .ignored => .ok .unit
  | .bytes => .error (Refusal.invalidType .sequence "a borrowed byte array").toError
  | .cstring => do
    let numbers ← fields.zipIdx.mapM fun (content, index) => Field.int ⟨index, content⟩ .u8
    nonzeroBytes (numbers.map fun (n : Int) => UInt8.ofNat n.toNat)
  | .map => .error (Refusal.invalidType .sequence "a map").toError
  | .seq shape => (shape.readAll fields).map .seq
  | .leading limit shape =>
    (shape.readAll (fields.take limit)).map fun items =>
      .tuple [.seq items, .int .u64 (fields.drop limit).length]
  | .tuple shapes => (readExactly shapes fields).map .tuple
  | .tupleStruct name shapes => (readExactly shapes fields).map (.tupleStruct name)
  | .struct name members =>
    (readExactly (members.map Prod.snd) fields).map fun values => .struct name ((members.map Prod.fst).zip values)
  | .newtypeStruct name shape => (shape.readRecord fields).map (.newtypeStruct name)
  | .refusing reason => .error (.custom reason)
  | shape => shape.readSingle fields

end Shape

end DelimitedText
