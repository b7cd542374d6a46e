import Pipeline.Decode.Plain
import Pipeline.Toml.Document

/-!
# Decoding TOML documents

A structure is a table, or the list of its fields, after which anything may follow.
A date or time counts as a mapping with one entry.  A name is a text, or a table from
it to an empty table or array.  Every field that is there has a value.
-/

namespace Pipeline.Toml.Node

/-- What a fault says about a node. -/
def found : Node → Found
  | .string s => .string s
  | .integer n => .number (.int n)
  | .float (some x) => .number (.float x)
  | .float none => .null
  | .boolean b => .bool b
  | .array _ | .tables _ => .sequence
  | .moment _ | .table .. => .map

/-- The node is of the wrong kind. -/
def unexpected {α : Type} (n : Node) (expected : String) : Decoded α :=
  .error (.invalidType n.found expected)

/-- A text. -/
def decodeText : Node → Decoded String
  | .string s => .ok s
  | n => n.unexpected "a string"

/-- A truth value. -/
def decodeBool : Node → Decoded Bool
  | .boolean b => .ok b
  | n => n.unexpected "a boolean"

/-- Whether a node is a table or an array with nothing in it. -/
def isHollow : Node → Bool
  | .table _ entries => entries.isEmpty
  | .array xs | .tables xs => xs.isEmpty
  | _ => false

/-- One of some names. -/
def decodeChoice (names : List String) : Node → Decoded String
  | .string s => if s ∈ names then .ok s else .error (.unknownVariant s names)
  | .table _ entries =>
    match entries.toList with
    | [(name, n)] =>
      if name ∉ names then .error (.unknownVariant name names)
      else if n.isHollow then .ok name
      else n.unexpected "empty table"
    | _ => .error (.invalidValue .map "map with a single key")
  | n => n.unexpected "string or table"

/-- A mapping of any values. -/
def decodeRecord : Node → Decoded Record
  | .moment text => .ok (momentRecord text)
  | .table _ entries => .ok (entriesToValues entries)
  | n => n.unexpected "a map"

/-- The elements of a list. -/
def decodeElements : Node → Decoded (List Node)
  | .array xs | .tables xs => .ok xs
  | n => n.unexpected "a sequence"

/-- The parts of a structure. -/
def decodeFields (name : String) : Node → Decoded (Fields Node)
  | .table _ entries => .ok (.named entries.toList)
  | .moment text => .ok (.named [(momentKey, .string text)])
  | .array xs | .tables xs => .ok (.positional xs)
  | n => n.unexpected ("struct " ++ name)

/-- How nodes are decoded. -/
def format : Format Decoded Node where
  lenient := true
  fail fault := .error fault
  text := decodeText
  path := decodeText
  boolean := decodeBool
  choice := decodeChoice
  optional n := .ok (some n)
  value n := .ok n.toValue
  record := decodeRecord
  elements := decodeElements
  fields := decodeFields

end Pipeline.Toml.Node
