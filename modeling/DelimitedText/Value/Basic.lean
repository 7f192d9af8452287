import DelimitedText.Number.Float
import DelimitedText.Number.Integer

/-!
# Values to be laid out as records

`Value` is the tree of a typed value: scalars, optional values, named types around other values, variants of
enumerations and compound values. A record holds the elements of one compound value, or a single scalar.
-/

namespace DelimitedText

/-- The form of a variant of an enumeration. -/
inductive VariantKind where
  | unit
  | newtype
  | tuple
  | struct
  deriving Repr, DecidableEq

/-- How messages call one variant of a kind. -/
def VariantKind.describe : VariantKind → String
  | .unit => "unit variant"
  | .newtype => "newtype variant"
  | .tuple => "tuple variant"
  | .struct => "struct variant"

/-- A typed value. -/
inductive Value where
  | bool (b : Bool)
  | int (type : IntType) (n : Int)
  /-- the floating-point number with the given bits -/
  | float (type : FloatType) (bits : Nat)
  | char (c : Char)
  | text (s : String)
  | bytes (content : List UInt8)
  /-- an optional value that is not there -/
  | absent
  /-- an optional value that is there -/
  | present (value : Value)
  | unit
  | unitStruct (name : String)
  /-- a variant without content -/
  | unitVariant (enumeration variant : String)
  /-- a variant with content, so not a unit variant -/
  | dataVariant (kind : VariantKind) (enumeration variant : String) (content : List Value)
      (hasContent : kind ≠ .unit := by decide)
  /-- a named type around one value -/
  | newtypeStruct (name : String) (value : Value)
  | seq (items : List Value)
  | tuple (items : List Value)
  | tupleStruct (name : String) (items : List Value)
  | map (entries : List (Value × Value))
  | struct (name : String) (fields : List (String × Value))
  /-- a value that refuses to be written, with its reason -/
  | failing (reason : String)
  deriving Repr

instance : Inhabited Value := ⟨.unit⟩

end DelimitedText
