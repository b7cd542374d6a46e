import Pipeline.Number
import Pipeline.Text.Quoted

/-!
# Faults of typed decoding

Reading a value as data of a declared form can fail; the fault says what was found
and what was expected.
-/

namespace Pipeline

/-- What was found. -/
inductive Found
  | null
  | bool (b : Bool)
  | number (n : Number)
  | string (s : String)
  | sequence
  | map
  deriving DecidableEq, Repr

/-- The wording of what was found. -/
def Found.text : Found → String
  | .null => "null"
  | .bool b => "boolean `" ++ toString b ++ "`"
  | .number (.int n) => "integer `" ++ toString n ++ "`"
  | .number (.float x) => "floating point `" ++ x.render ++ "`"
  | .string s => "string " ++ Text.quoted s
  | .sequence => "sequence"
  | .map => "map"

/-- Why a value cannot be decoded. -/
inductive DecodeFault
  /-- A field is missing. -/
  | missingField (field : String)
  /-- A field stands twice. -/
  | duplicateField (field : String)
  /-- A field is not one of those allowed. -/
  | unknownField (field : String) (allowed : List String)
  /-- A name is not one of those allowed. -/
  | unknownVariant (name : String) (allowed : List String)
  /-- The value is of the wrong kind. -/
  | invalidType (found : Found) (expected : String)
  /-- The value is of the right kind but out of range. -/
  | invalidValue (found : Found) (expected : String)
  /-- There are too few or too many elements. -/
  | invalidLength (length : Nat) (expected : String)
  /-- The value has none of the forms of a type. -/
  | noForm (type : String)
  deriving DecidableEq, Repr

/-- The allowed names in words. -/
def oneOf : List String → String
  | [] => ""
  | [a] => "`" ++ a ++ "`"
  | [a, b] => "`" ++ a ++ "` or `" ++ b ++ "`"
  | names => "one of " ++ ", ".intercalate (names.map fun n => "`" ++ n ++ "`")

/-- The wording of a fault. -/
def DecodeFault.message : DecodeFault → String
  | .missingField field => "missing field `" ++ field ++ "`"
  | .duplicateField field => "duplicate field `" ++ field ++ "`"
  | .unknownField field [] => "unknown field `" ++ field ++ "`, there are no fields"
  | .unknownField field allowed => "unknown field `" ++ field ++ "`, expected " ++ oneOf allowed
  | .unknownVariant name [] => "unknown variant `" ++ name ++ "`, there are no variants"
  | .unknownVariant name allowed => "unknown variant `" ++ name ++ "`, expected " ++ oneOf allowed
  | .invalidType found expected => "invalid type: " ++ found.text ++ ", expected " ++ expected
  | .invalidValue found expected => "invalid value: " ++ found.text ++ ", expected " ++ expected
  | .invalidLength length expected =>
    "invalid length " ++ toString length ++ ", expected " ++ expected
  | .noForm type => "data did not match any variant of untagged enum " ++ type

end Pipeline
