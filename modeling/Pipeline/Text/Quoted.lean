import Pipeline.Text.Printable

/-!
# Quoted texts

A text in a message about data is put between quotes, so that its ends and its
hidden characters can be seen: a quote and a backslash get a backslash, the four
common controls a letter, and every other character that does not show its number
in braces.
-/

namespace Pipeline.Text

/-- How one character is written between quotes. -/
def escape (c : Char) : List Char :=
  match c with
  | '"' => ['\\', '"']
  | '\\' => ['\\', '\\']
  | '\x00' => ['\\', '0']
  | '\n' => ['\\', 'n']
  | '\r' => ['\\', 'r']
  | '\t' => ['\\', 't']
  | c =>
    if shows c then [c]
    else ['\\', 'u', '\x7b'] ++ Nat.toDigits 16 c.toNat ++ ['\x7d']

/-- A text between quotes. -/
def quoted (s : String) : String := "\"" ++ String.ofList (s.toList.flatMap escape) ++ "\""

end Pipeline.Text
