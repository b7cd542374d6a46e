/-!
# Tokens of YAML

Indentation is made visible by tokens that open and close block collections.
-/

namespace Pipeline.Yaml

/-- How a scalar is written. -/
inductive Style
  | plain
  | singleQuoted
  | doubleQuoted
  | literal
  | folded
  deriving DecidableEq, Repr, Inhabited

/-- The bytes of a tag, which need not be those of a text. -/
abbrev Tag := List UInt8

/-- The tag with a text. -/
def Tag.ofString (s : String) : Tag := s.toUTF8.toList

/-- A token. -/
inductive Token
  /-- The version a document is written for. -/
  | version (major minor : Nat)
  /-- What a tag handle stands for. -/
  | handle (name : String) (start : Tag)
  | documentStart
  | documentEnd
  | blockSequence
  | blockMapping
  | blockEnd
  | flowSequence
  | flowSequenceEnd
  | flowMapping
  | flowMappingEnd
  | blockEntry
  | flowEntry
  | key
  | value
  | alias (name : String)
  | anchor (name : String)
  | tag (handle : String) (suffix : Tag)
  | scalar (style : Style) (text : String)
  deriving DecidableEq, Repr, Inhabited

end Pipeline.Yaml
