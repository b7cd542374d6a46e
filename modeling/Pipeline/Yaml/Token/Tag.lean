import Pipeline.Yaml.Cursor
import Pipeline.Yaml.Token
import Pipeline.Yaml.Token.Scalar

/-!
# Anchors, tags and directives of YAML

A tag is written in full between angles, or as a handle and a suffix.  Each of these
ends at an escaped zero byte: what follows is read but does not count.  A directive
says what a handle stands for, or the version of the document.
-/

namespace Pipeline.Yaml

/-- Read the name of an anchor or alias, at its indicator. -/
def readAnchor (c : Cursor) : Option (String × Cursor) :=
  let name := c.next.rest.takeWhile isWord
  let c := c.next.skip name.length
  let ends := endsWord c.rest || c.rest.head?.any fun ch =>
    ch = '?' || ch = ':' || ch = ',' || ch = ']' || ch = '\x7d' || ch = '%' || ch = '@' || ch = '`'
  if name.isEmpty || !ends then none else some (String.ofList name, c)

/-- A character of a tag, besides those of names. -/
def isTagChar (full : Bool) (c : Char) : Bool :=
  isWord c || c = ';' || c = '/' || c = '?' || c = ':' || c = '@' || c = '&' || c = '=' ||
    c = '+' || c = '$' || c = '.' || c = '%' || c = '!' || c = '~' || c = '*' || c = '\'' ||
    c = '(' || c = ')' || (full && (c = ',' || c = '[' || c = ']'))

/-- Read an escaped byte. -/
def readByte (c : Cursor) : Option (UInt8 × Cursor) :=
  match c.rest with
  | '%' :: a :: b :: _ => (Text.number? 16 [a, b]).map fun n => (n.toUInt8, c.skip 3)
  | _ => none

/-- How many bytes follow the first one of a character. -/
def followers? (b : UInt8) : Option Nat :=
  if b < 0x80 then some 0
  else if b < 0xC0 then none
  else if b < 0xE0 then some 1
  else if b < 0xF0 then some 2
  else if b < 0xF8 then some 3
  else none

/-- Read the escaped bytes that follow the first one of a character. -/
def readFollowers : Nat → Cursor → Option (Tag × Cursor)
  | 0, c => some ([], c)
  | n + 1, c => do
    let (b, c) ← readByte c
    if b < 0x80 ∨ 0xC0 ≤ b then none
    let (bs, c) ← readFollowers n c
    some (b :: bs, c)

/-- Read the characters of a tag. -/
def readTagChars (full : Bool) : (fuel : Nat) → Cursor → Option (Tag × Cursor)
  | 0, c => some ([], c)
  | fuel + 1, c =>
    match c.rest with
    | [] => some ([], c)
    | ch :: _ =>
      if ch = '%' then do
        let (b, c) ← readByte c
        let (bs, c) ← readFollowers (← followers? b) c
        let (more, c) ← readTagChars full fuel c
        some (b :: bs ++ more, c)
      else if isTagChar full ch then do
        let (more, c) ← readTagChars full fuel c.next
        some (ch.toNat.toUInt8 :: more, c)
      else some ([], c)

/-- The bytes of a tag that count. -/
def beforeZero (tag : Tag) : Tag := tag.takeWhile (· ≠ 0)

/-- Read a tag or the rest of one; it has at least one character. -/
def readTagText (full : Bool) (c : Cursor) : Option (Tag × Cursor) := do
  let (tag, c) ← readTagChars full c.fuel c
  if tag.isEmpty then none else some (beforeZero tag, c)

/-- Read what may be a handle: an exclamation mark, a name, and perhaps another
mark. -/
def readHandle (c : Cursor) : Option (String × Cursor) :=
  match c.rest with
  | '!' :: rest =>
    let name := rest.takeWhile isWord
    let c := c.next.skip name.length
    match c.rest with
    | '!' :: _ => some (String.ofList ('!' :: name ++ ['!']), c.next)
    | _ => some (String.ofList ('!' :: name), c)
  | _ => none

/-- Read a tag in two parts, at its exclamation mark. -/
def readShortTag (c : Cursor) : Option (Token × Cursor) := do
  let (handle, after) ← readHandle c
  if handle.length ≥ 2 ∧ handle.endsWith "!" then
    let (suffix, c) ← readTagText false after
    some (.tag handle suffix, c)
  else
    let (text, c) ← readTagChars false c.fuel c.next
    let suffix := beforeZero text
    if suffix.isEmpty then some (.tag "" (Tag.ofString "!"), c) else some (.tag "!" suffix, c)

/-- Read a tag. -/
def readTag (flow : Bool) (c : Cursor) : Option (Token × Cursor) := do
  let (token, c) ← match c.rest with
    | '!' :: '<' :: _ => do
      let (tag, c) ← readTagText true (c.skip 2)
      if c.rest.head? = some '>' then some (Token.tag "" tag, c.next) else none
    | _ => readShortTag c
  if endsWord c.rest ∨ (flow ∧ c.rest.head? = some ',') then some (token, c) else none

/-! ## Directives -/

/-- Read a number of at most nine digits. -/
def readShortNumber (c : Cursor) : Option (Nat × Cursor) :=
  let ds := c.rest.takeWhile Char.isDigit
  if ds.isEmpty ∨ 9 < ds.length then none
  else some (Text.number 10 ds, c.skip ds.length)

/-- Read the value of a version directive. -/
def readVersion (c : Cursor) : Option (Token × Cursor) := do
  let (major, c) ← readShortNumber (c.skipWhile isBlank)
  if c.rest.head? ≠ some '.' then none
  let (minor, c) ← readShortNumber c.next
  some (.version major minor, c)

/-- Read the value of a tag directive. -/
def readHandleValue (c : Cursor) : Option (Token × Cursor) := do
  let (handle, c) ← readHandle (c.skipWhile isBlank)
  if handle ≠ "!" ∧ (handle.length < 2 ∨ !handle.endsWith "!") then none
  if !startsBlank c.rest then none
  let (start, c) ← readTagText true (c.skipWhile isBlank)
  if endsWord c.rest then some (.handle handle start, c) else none

/-- Read a directive, at its percent sign, with the rest of its line. -/
def readDirective (c : Cursor) : Option (Token × Cursor) := do
  let name := c.next.rest.takeWhile isWord
  let c := c.next.skip name.length
  if !endsWord c.rest then none
  let (token, c) ←
    if name = "YAML".toList then readVersion c
    else if name = "TAG".toList then readHandleValue c
    else none
  some (token, ← c.endLine?)

end Pipeline.Yaml
