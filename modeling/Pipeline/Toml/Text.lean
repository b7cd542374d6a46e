import Pipeline.Text.Digits

/-!
# Characters and strings of TOML

A string stands between double quotes, where a backslash escapes, or between single
quotes, where every character stands for itself.  Three quotes open a string that
may go over several lines.  Control characters other than the tab must be escaped.

A reader takes the rest of the text and gives what it read and what is left.
-/

namespace Pipeline.Toml

/-! ## Blanks, ends of lines and comments -/

/-- A blank within a line. -/
def isBlank (c : Char) : Bool := c = ' ' || c = '\t'

/-- Skip blanks within the line. -/
def skipBlanks (cs : List Char) : List Char := cs.dropWhile isBlank

/-- A character that may stand anywhere in a line: not a control character, save the
tab. -/
def isLineChar (c : Char) : Bool := c = '\t' || (0x20 ≤ c.toNat && c.toNat ≠ 0x7F)

/-- The text after the end of a line, if one is here. -/
def newline? : List Char → Option (List Char)
  | '\n' :: rest => some rest
  | '\r' :: '\n' :: rest => some rest
  | _ => none

/-- Skip a comment, if one is here. -/
def skipComment : List Char → List Char
  | '#' :: rest => rest.dropWhile isLineChar
  | rest => rest

/-- The text after the line, if nothing but a comment is left of it. -/
def lineEnd? (cs : List Char) : Option (List Char) :=
  match skipComment (skipBlanks cs) with
  | [] => some []
  | rest => newline? rest

/-- Skip blanks, comments and ends of lines, at most `fuel` lines. -/
def skipLines : (fuel : Nat) → List Char → List Char
  | 0, cs => cs
  | fuel + 1, cs =>
    match newline? (skipComment (skipBlanks cs)) with
    | some rest => skipLines fuel rest
    | none => skipBlanks cs

/-- Skip blanks and ends of lines. -/
def skipSpace : List Char → List Char
  | '\r' :: '\n' :: rest => skipSpace rest
  | c :: rest => if c = '\n' ∨ isBlank c then skipSpace rest else c :: rest
  | [] => []

/-! ## Escapes -/

/-- Read the character with a code of some hexadecimal digits. -/
def readCode (count : Nat) (cs : List Char) : Option (Char × List Char) := do
  let ds := cs.take count
  if ds.length < count then none
  let n ← Text.number? 16 ds
  if n.isValidChar then some (Char.ofNat n, cs.drop count) else none

/-- Read an escape, after its backslash. -/
def readEscape : List Char → Option (Char × List Char)
  | 'b' :: rest => some ('\x08', rest)
  | 'f' :: rest => some ('\x0c', rest)
  | 'n' :: rest => some ('\n', rest)
  | 'r' :: rest => some ('\r', rest)
  | 't' :: rest => some ('\t', rest)
  | '\\' :: rest => some ('\\', rest)
  | '"' :: rest => some ('"', rest)
  | 'u' :: rest => readCode 4 rest
  | 'U' :: rest => readCode 8 rest
  | _ => none

/-! ## Strings

The characters read so far are in reverse order. -/

/-- A string with the rest of the text. -/
abbrev StringRead := Option (String × List Char)

/-- The string of the characters read. -/
def finishString (acc rest : List Char) : StringRead := some (String.ofList acc.reverse, rest)

/-- Read a string with escapes on one line, after its opening quote. -/
def readBasic : (fuel : Nat) → List Char → List Char → StringRead
  | 0, _, _ => none
  | _ + 1, acc, '"' :: rest => finishString acc rest
  | fuel + 1, acc, '\\' :: rest => do
    let (c, rest) ← readEscape rest
    readBasic fuel (c :: acc) rest
  | fuel + 1, acc, c :: rest => if isLineChar c then readBasic fuel (c :: acc) rest else none
  | _ + 1, _, [] => none

/-- Read a string without escapes on one line, after its opening quote. -/
def readLiteral : List Char → List Char → StringRead
  | acc, '\'' :: rest => finishString acc rest
  | acc, c :: rest => if isLineChar c then readLiteral (c :: acc) rest else none
  | _, [] => none

/-- Whether an escape at the end of a line starts here: it drops the end of the line
and the blanks after it. -/
def escapedLine? (cs : List Char) : Option (List Char) := (newline? (skipBlanks cs)).map skipSpace

/-- Read a string over several lines, after its opening quotes.  One or two quotes
stand for themselves, and so do those in front of the closing three. -/
def readMultiline (quote : Char) (escapes : Bool) : (fuel : Nat) → List Char → List Char → StringRead
  | 0, _, _ => none
  | fuel + 1, acc, cs =>
    let run := (cs.takeWhile (· = quote)).length
    if 3 ≤ run then
      let inside := min (run - 3) 2
      finishString (List.replicate inside quote ++ acc) (cs.drop (inside + 3))
    else
      match newline? cs, cs with
      | some rest, _ => readMultiline quote escapes fuel ('\n' :: acc) rest
      | none, [] => none
      | none, c :: rest =>
        if escapes ∧ c = '\\' then
          match escapedLine? rest with
          | some rest => readMultiline quote escapes fuel acc rest
          | none => do
            let (c, rest) ← readEscape rest
            readMultiline quote escapes fuel (c :: acc) rest
        else if isLineChar c then readMultiline quote escapes fuel (c :: acc) rest
        else none

/-- Read a string over several lines, after its opening quotes; an end of line right
after them is dropped. -/
def readLong (quote : Char) (escapes : Bool) (cs : List Char) : StringRead :=
  readMultiline quote escapes (cs.length + 1) [] ((newline? cs).getD cs)

/-- Read a string on one line, if one starts here. -/
def readShort : List Char → StringRead
  | '"' :: rest => readBasic (rest.length + 1) [] rest
  | '\'' :: rest => readLiteral [] rest
  | _ => none

/-- Read a string. -/
def readString : List Char → StringRead
  | '"' :: '"' :: '"' :: rest => readLong '"' true rest
  | '\'' :: '\'' :: '\'' :: rest => readLong '\'' false rest
  | rest => readShort rest

end Pipeline.Toml
