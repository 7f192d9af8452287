import DelimitedText.Text.Quoted

/-!
# Why reading, writing or mapping a record fails

`Error` lists the causes, `Error.message` words them. `Refusal` lists the causes that arise between a record and the
type that it is mapped from or to; they are reported as `Error.custom`.
-/

namespace DelimitedText

/-- Why reading, writing or mapping a record failed. Lines and columns count from 1, fields from 0. -/
inductive Error where
  /-- a quote where the grammar has no place for it, or a quoted field that its line does not close -/
  | misplacedQuote (line column : Nat) (context : String)
  /-- the input ended inside a quoted field -/
  | unclosedQuote (line : Nat) (context : String)
  /-- a delimiter that quoting or line breaks already use -/
  | invalidDelimiter (c : Char)
  /-- a record whose number of fields is not the one that the type asks for -/
  | fieldCount (expected found : Nat)
  /-- a field whose text does not spell a value of the type -/
  | invalidField (index : Nat) (expected found : String)
  /-- a shape of value that has no flat form -/
  | unsupportedShape (shape : String)
  /-- the source or the sink failed -/
  | io (message : String)
  /-- any other refusal, in the words of whoever refused -/
  | custom (message : String)
  deriving Repr, DecidableEq

namespace Error

/-- The wording of an error. -/
def message : Error → String
  | .misplacedQuote line column context =>
    s!"Misplaced or unterminated quote at line {line}, column {column}: [{context}]"
  | .unclosedQuote line context =>
    s!"Unexpected end of input at line {line}: missing closing quote in field [\"{context}]"
  | .invalidDelimiter c => "Invalid delimiter " ++ Text.quotedChar c ++ ": must not be a quote or line break"
  | .fieldCount expected found => s!"Field count mismatch: expected {expected}, found {found}"
  | .invalidField index expected found =>
    s!"Invalid field at index {index}: expected {expected}, found " ++ Text.quotedText found
  | .unsupportedShape shape => s!"Unsupported type: {shape}"
  | .io text => s!"IO error: {text}"
  | .custom text => s!"Error: {text}"

/-- Whether the text of a record is at fault, so that reading can go on behind it. -/
def isParseError : Error → Bool
  | .misplacedQuote .. | .unclosedQuote .. => true
  | _ => false

end Error

/-! ## Refusals of a type -/

/-- What a requested type was handed. -/
inductive Offer where
  | text (s : String)
  | sequence
  | unitVariant
  deriving Repr, DecidableEq

/-- How a refusal names what was handed over. -/
def Offer.describe : Offer → String
  | .text s => "string " ++ Text.quotedText s
  | .sequence => "sequence"
  | .unitVariant => "unit variant"

/-- Why a value has no place in a type, or in a record. -/
inductive Refusal where
  /-- a value of another kind -/
  | invalidType (offer : Offer) (wanted : String)
  /-- a name outside the list of variants -/
  | unknownVariant (name : String) (known : List String)
  /-- a zero byte in a text that a zero byte ends -/
  | zeroByte (position : Nat)
  /-- an integer too wide to be written -/
  | unsupportedInteger (type : String)
  deriving Repr, DecidableEq

namespace Refusal

/-- A name between grave accents. -/
def ticked (name : String) : String :=
  "`" ++ name ++ "`"

/-- What a name was expected to be, given the names that there are. -/
def alternatives : List String → String
  | [] => "there are no variants"
  | [a] => "expected " ++ ticked a
  | [a, b] => "expected " ++ ticked a ++ " or " ++ ticked b
  | names => "expected one of " ++ String.intercalate ", " (names.map ticked)

/-- The wording of a refusal. -/
def message : Refusal → String
  | .invalidType offer wanted => "invalid type: " ++ offer.describe ++ ", expected " ++ wanted
  | .unknownVariant name known => "unknown variant " ++ ticked name ++ ", " ++ alternatives known
  | .zeroByte position => s!"nul byte found in provided data at position: {position}"
  | .unsupportedInteger type => s!"{type} is not supported"

/-- A refusal as an error. -/
def toError (r : Refusal) : Error :=
  .custom r.message

end Refusal

end DelimitedText
