import Pipeline.Value

/-!
# JSON text of a value

Values are written without blanks, the keys of a mapping in ascending order.  A
text is written between quotes: a quote, a backslash and the characters below
U+0020 are escaped, the last by a letter where JSON has one and else by four
lower-case hexadecimal digits.  All other characters stand for themselves.
-/

namespace Pipeline.Json

/-- A hexadecimal digit in lower case. -/
def hexDigit (n : Nat) : Char := (Nat.toDigits 16 n).headD '0'

/-- How one character is written between quotes. -/
def escape (c : Char) : List Char :=
  match c with
  | '"' => ['\\', '"']
  | '\\' => ['\\', '\\']
  | '\x08' => ['\\', 'b']
  | '\x0c' => ['\\', 'f']
  | '\n' => ['\\', 'n']
  | '\r' => ['\\', 'r']
  | '\t' => ['\\', 't']
  | c =>
    if c.toNat < 0x20 then ['\\', 'u', '0', '0', hexDigit (c.toNat / 16), hexDigit (c.toNat % 16)]
    else [c]

/-- A text between quotes. -/
def quote (s : String) : String := "\"" ++ String.ofList (s.toList.flatMap escape) ++ "\""

mutual

/-- The JSON text of a value. -/
def render : Value → String
  | .null => "null"
  | .bool b => if b then "true" else "false"
  | .number n => n.render
  | .string s => quote s
  | .list xs => "[" ++ renderList xs ++ "]"
  | .mapping r => "\x7b" ++ renderEntries r ++ "\x7d"

/-- The elements, with commas between them. -/
def renderList : List Value → String
  | [] => ""
  | [x] => render x
  | x :: y :: rest => render x ++ "," ++ renderList (y :: rest)

/-- The entries, with commas between them. -/
def renderEntries : {b : Option String} → Ascending Value b → String
  | _, .nil => ""
  | _, .cons k v _ .nil => quote k ++ ":" ++ render v
  | _, .cons k v _ (.cons l w h rest) =>
    quote k ++ ":" ++ render v ++ "," ++ renderEntries (.cons l w h rest)

end

end Pipeline.Json

namespace Pipeline

/-- How a register is shown in a message. -/
def showRegister (r : Record) : String := "Transformable(" ++ Json.render (.mapping r) ++ ")"

end Pipeline
