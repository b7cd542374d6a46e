/-!
# Characters and places of YAML text

A *cursor* is a place in a text: what is left of the text, how many bytes came
before, and the line and column.  A column is counted in characters.  Lines end at a
carriage return, a line feed, the two together, or one of three other line breaks.
-/

namespace Pipeline.Yaml

/-! ## Characters -/

/-- The next-line character. -/
def nextLine : Char := Char.ofNat 0x85

/-- The line separator. -/
def lineSeparator : Char := Char.ofNat 0x2028

/-- The paragraph separator. -/
def paragraphSeparator : Char := Char.ofNat 0x2029

/-- The byte order mark. -/
def byteOrderMark : Char := Char.ofNat 0xFEFF

/-- A character that ends a line. -/
def isBreak (c : Char) : Bool :=
  c = '\r' || c = '\n' || c = nextLine || c = lineSeparator || c = paragraphSeparator

/-- A blank within a line. -/
def isBlank (c : Char) : Bool := c = ' ' || c = '\t'

/-- A character of a name. -/
def isWord (c : Char) : Bool := c.isAlphanum || c = '_' || c = '-'

/-- A character that a text may hold. -/
def isAllowed (c : Char) : Bool :=
  let n := c.toNat
  n = 0x9 || n = 0xA || n = 0xD || (0x20 ≤ n && n ≤ 0x7E) || n = 0x85 ||
    (0xA0 ≤ n && n ≤ 0xD7FF) || (0xE000 ≤ n && n ≤ 0xFFFD) || 0x10000 ≤ n

/-- Whether a line break comes next. -/
def startsBreak : List Char → Bool
  | c :: _ => isBreak c
  | [] => false

/-- Whether a blank comes next. -/
def startsBlank : List Char → Bool
  | c :: _ => isBlank c
  | [] => false

/-- Whether a blank, a line break or the end of the text comes next. -/
def endsWord : List Char → Bool
  | c :: _ => isBreak c || isBlank c
  | [] => true

/-- Whether a mark of three equal characters stands here on its own. -/
def startsMark (mark : Char) : List Char → Bool
  | a :: b :: c :: rest => a = mark && b = mark && c = mark && endsWord rest
  | _ => false

/-- Whether a line here starts or ends a document. -/
def startsDocumentMark (cs : List Char) : Bool := startsMark '-' cs || startsMark '.' cs

/-! ## Cursors -/

/-- A place in a text. -/
structure Cursor where
  rest : List Char
  /-- The number of bytes before the place. -/
  index : Nat
  line : Nat
  column : Nat
  deriving Inhabited

/-- The number of bytes of some characters. -/
def byteCount (cs : List Char) : Nat := cs.foldr (fun c n => c.utf8Size + n) 0

namespace Cursor

/-- Pass some characters of the line. -/
def skip (c : Cursor) (n : Nat) : Cursor :=
  ⟨c.rest.drop n, c.index + byteCount (c.rest.take n), c.line, c.column + n⟩

/-- Pass one character of the line. -/
def next (c : Cursor) : Cursor := c.skip 1

/-- Pass characters of the line while they satisfy a test. -/
def skipWhile (c : Cursor) (p : Char → Bool) : Cursor := c.skip (c.rest.takeWhile p).length

/-- Pass a comment, if one is here. -/
def skipComment (c : Cursor) : Cursor :=
  match c.rest with
  | '#' :: _ => c.skipWhile fun ch => !isBreak ch
  | _ => c

/-- Pass one line break. -/
def nextLine (c : Cursor) : Cursor :=
  match c.rest with
  | '\r' :: '\n' :: rest => ⟨rest, c.index + 2, c.line + 1, 0⟩
  | ch :: rest => ⟨rest, c.index + ch.utf8Size, c.line + 1, 0⟩
  | [] => c

/-- What the line break here counts as: a line feed, save for the two separators,
which stand for themselves. -/
def lineBreak (c : Cursor) : List Char :=
  match c.rest with
  | [] => []
  | ch :: _ =>
    if ch = lineSeparator ∨ ch = paragraphSeparator then [ch]
    else if isBreak ch then ['\n']
    else []

/-- Pass what is left of the line, given that it is blank or a comment. -/
def endLine? (c : Cursor) : Option Cursor :=
  let c := (c.skipWhile isBlank).skipComment
  if startsBreak c.rest then some c.nextLine
  else if c.rest.isEmpty then some c
  else none

/-- How many characters are left, and one more. -/
def fuel (c : Cursor) : Nat := c.rest.length + 1

end Cursor

end Pipeline.Yaml
