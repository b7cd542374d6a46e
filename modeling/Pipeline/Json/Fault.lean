/-!
# Faults in JSON text

A fault says what is wrong with a text and where: the line, and the number of bytes
from its start up to and including the one that is wrong.
-/

namespace Pipeline.Json

/-- What is wrong with a JSON text. -/
inductive Complaint
  /-- The text ends inside a list. -/
  | endInList
  /-- The text ends inside a mapping. -/
  | endInMapping
  /-- The text ends between quotes. -/
  | endInQuotes
  /-- The text ends where a value is expected, or inside one. -/
  | endInValue
  /-- A key is not followed by a colon. -/
  | colonExpected
  /-- An element is followed by neither a comma nor the end of the list. -/
  | commaOrBracketExpected
  /-- A member is followed by neither a comma nor the end of the mapping. -/
  | commaOrBraceExpected
  /-- A word is misspelled. -/
  | wordExpected
  /-- No value starts here. -/
  | valueExpected
  /-- A backslash is followed by something that it does not escape. -/
  | invalidEscape
  /-- A number is misspelled. -/
  | invalidNumber
  /-- A number is beyond the largest one. -/
  | numberOutOfRange
  /-- A raw character below U+0020 stands between quotes. -/
  | controlCharacter
  /-- A key is not between quotes. -/
  | keyNotText
  /-- An escaped surrogate is not one of a pair. -/
  | loneSurrogate
  /-- The first surrogate of a pair is not followed by an escape. -/
  | pairExpected
  /-- A comma stands before the end of a list or mapping. -/
  | trailingComma
  /-- Something stands after the value. -/
  | trailingText
  /-- Lists and mappings nest too deep. -/
  | tooDeep
  deriving DecidableEq, Repr

/-- The wording of a complaint. -/
def Complaint.text : Complaint → String
  | .endInList => "EOF while parsing a list"
  | .endInMapping => "EOF while parsing an object"
  | .endInQuotes => "EOF while parsing a string"
  | .endInValue => "EOF while parsing a value"
  | .colonExpected => "expected `:`"
  | .commaOrBracketExpected => "expected `,` or `]`"
  | .commaOrBraceExpected => "expected `,` or `\x7d`"
  | .wordExpected => "expected ident"
  | .valueExpected => "expected value"
  | .invalidEscape => "invalid escape"
  | .invalidNumber => "invalid number"
  | .numberOutOfRange => "number out of range"
  | .controlCharacter =>
    "control character (\\u0000-\\u001F) found while parsing a string"
  | .keyNotText => "key must be a string"
  | .loneSurrogate => "lone leading surrogate in hex escape"
  | .pairExpected => "unexpected end of hex escape"
  | .trailingComma => "trailing comma"
  | .trailingText => "trailing characters"
  | .tooDeep => "recursion limit exceeded"

/-- What is wrong with a text, and where. -/
structure Fault where
  complaint : Complaint
  line : Nat
  column : Nat
  deriving DecidableEq, Repr

/-- The wording of a fault. -/
def Fault.message (f : Fault) : String :=
  f.complaint.text ++ " at line " ++ toString f.line ++ " column " ++ toString f.column

end Pipeline.Json
