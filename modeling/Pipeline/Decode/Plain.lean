import Pipeline.Decode.Format
import Pipeline.Memory.Manager

/-!
# Decoding values

How plain values are decoded: each form takes values of its own kind only.  A name
may also be given as a mapping from it to null.
-/

namespace Pipeline

/-- The result of decoding a value. -/
abbrev Decoded := Except DecodeFault

namespace Value

/-- What a fault says about a value. -/
def found : Value → Found
  | .null => .null
  | .bool b => .bool b
  | .number n => .number n
  | .string s => .string s
  | .list _ => .sequence
  | .mapping _ => .map

/-- The value is of the wrong kind. -/
def unexpected {α : Type} (v : Value) (expected : String) : Decoded α :=
  .error (.invalidType v.found expected)

/-- A text. -/
def decodeText (expected : String) : Value → Decoded String
  | .string s => .ok s
  | v => v.unexpected expected

/-- A truth value. -/
def decodeBool : Value → Decoded Bool
  | .bool b => .ok b
  | v => v.unexpected "a boolean"

/-- An integer in a range, which has a name. -/
def decodeInt (low high : Int) (expected : String) : Value → Decoded Int
  | .number (.int n) =>
    if low ≤ n ∧ n ≤ high then .ok n else .error (.invalidValue (.number (.int n)) expected)
  | v => v.unexpected expected

/-- An integer of 64 bits with a sign. -/
def decodeSigned : Value → Decoded Int := decodeInt Number.minInt Number.maxSigned "i64"

/-- An integer of 8 bits without a sign. -/
def decodeByte : Value → Decoded Int := decodeInt 0 255 "u8"

/-- A number. -/
def decodeNumber : Value → Decoded Number
  | .number n => .ok n
  | v => v.unexpected "f64"

/-- One of some names: a text, or a mapping from it to null. -/
def decodeChoice (names : List String) : Value → Decoded String
  | .string s => if s ∈ names then .ok s else .error (.unknownVariant s names)
  | .mapping r =>
    match r.toList with
    | [(name, v)] =>
      if name ∉ names then .error (.unknownVariant name names)
      else if v.kind = .null then .ok name
      else v.unexpected "unit"
    | _ => .error (.invalidValue .map "map with a single key")
  | v => v.unexpected "string or map"

/-- The elements of a list. -/
def decodeElements : Value → Decoded (List Value)
  | .list xs => .ok xs
  | v => v.unexpected "a sequence"

/-- A mapping. -/
def decodeRecord : Value → Decoded Record
  | .mapping r => .ok r
  | v => v.unexpected "a map"

/-- The parts of a structure. -/
def decodeFields (name : String) : Value → Decoded (Fields Value)
  | .mapping r => .ok (.named r.toList)
  | .list xs => .ok (.positional xs)
  | v => v.unexpected ("struct " ++ name)

/-- Nothing for null. -/
def decodeOptional : Value → Decoded (Option Value)
  | .null => .ok none
  | v => .ok (some v)

/-- How values are decoded. -/
def format : Format Decoded Value where
  lenient := false
  fail fault := .error fault
  text := decodeText "a string"
  path := decodeText "path string"
  boolean := decodeBool
  choice := decodeChoice
  optional := decodeOptional
  value v := .ok v
  record := decodeRecord
  elements := decodeElements
  fields := decodeFields

/-- A memory key, or a memory key and a register key. -/
def decodeIdentifier : Value → Decoded Identifier
  | .string key => .ok (.same key)
  | .list [.string memoryKey, .string registerKey] => .ok ⟨memoryKey, registerKey⟩
  | _ => .error (.noForm "MemoryIdentifier")

end Value

end Pipeline
