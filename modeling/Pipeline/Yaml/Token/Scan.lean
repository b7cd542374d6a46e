import Pipeline.Yaml.Token.Tag

/-!
# From text to tokens

A scalar or collection on one line may turn out to be a key, once the colon after it
is seen; the tokens that open a mapping and a key are then put in front of it.  Such
a *possible key* ends with its line or after 1024 bytes.  Outside of brackets
and braces, one at the column of the open block must turn out to be a key.
-/

namespace Pipeline.Yaml

/-- A place where a key may have started. -/
structure PossibleKey where
  /-- Whether a key must have started. -/
  required : Bool
  /-- How many tokens came before. -/
  number : Nat
  /-- How many bytes came before. -/
  index : Nat
  line : Nat
  column : Nat

/-- The tokens so far, and what they leave open. -/
structure Scan where
  cursor : Cursor
  tokens : Array Token
  /-- The column of the open block, `-1` outside of blocks. -/
  indent : Int
  /-- The columns of the blocks around it, innermost first. -/
  outer : List Int
  /-- Whether a key may start here. -/
  keyAllowed : Bool
  /-- The possible key of each open bracket or brace, innermost first, and then that
  of the blocks. -/
  keys : List (Option PossibleKey)

namespace Scan

/-- Whether a bracket or brace is open. -/
def inFlow (s : Scan) : Bool := 1 < s.keys.length

/-- The next character. -/
def head? (s : Scan) : Option Char := s.cursor.rest.head?

/-- What follows the next character. -/
def tail (s : Scan) : List Char := s.cursor.rest.tail

/-- One more token. -/
def push (s : Scan) (t : Token) : Scan := { s with tokens := s.tokens.push t }

/-- One more token, of one character. -/
def pushMark (s : Scan) (t : Token) : Scan := { s.push t with cursor := s.cursor.next }

/-- Allow or forbid a key here. -/
def allowKey (s : Scan) (allowed : Bool) : Scan := { s with keyAllowed := allowed }

/-! ## Possible keys -/

/-- Replace the possible key. -/
def setKey (s : Scan) (k : Option PossibleKey) : Scan := { s with keys := k :: s.keys.tail }

/-- The possible key. -/
def key? (s : Scan) : Option PossibleKey := s.keys.head?.join

/-- Give the possible key up, unless it is required. -/
def dropKey (s : Scan) : Option Scan :=
  if s.key?.any (·.required) then none else some (s.setKey none)

/-- Note that a key may start here. -/
def noteKey (s : Scan) : Option Scan :=
  if s.keyAllowed then
    let c := s.cursor
    let key : PossibleKey :=
      ⟨!s.inFlow && decide (s.indent = c.column), s.tokens.size, c.index, c.line, c.column⟩
    s.dropKey.map fun s => s.setKey (some key)
  else some s

/-- The longest text of a key that no indicator introduces, in bytes. -/
def maxKey : Nat := 1024

/-- Give up the possible keys that lie too far back; none of them may be required. -/
def dropStale (s : Scan) : Option Scan :=
  let stale (k : PossibleKey) : Bool :=
    k.line < s.cursor.line || k.index + maxKey < s.cursor.index
  if s.keys.any fun k => k.any fun k => k.required && stale k then none
  else some { s with keys := s.keys.map fun k => k.filter fun k => !stale k }

/-! ## Blocks -/

/-- Open a block at a column beyond the open one: its token goes behind the first
`number` ones. -/
def openBlock (s : Scan) (column : Nat) (number : Nat) (t : Token) : Scan :=
  if !s.inFlow ∧ s.indent < column then
    { s with
      indent := column
      outer := s.indent :: s.outer
      tokens := s.tokens.insertIdxIfInBounds number t }
  else s

/-- Close blocks from the innermost one on. -/
def closeFrom (column : Int) : Int → List Int → Array Token → Int × List Int × Array Token
  | indent, [], tokens => (indent, [], tokens)
  | indent, next :: outer, tokens =>
    if column < indent then closeFrom column next outer (tokens.push .blockEnd)
    else (indent, next :: outer, tokens)

/-- Close the blocks beyond a column. -/
def closeBlocks (s : Scan) (column : Int) : Scan :=
  if s.inFlow then s
  else
    let (indent, outer, tokens) := closeFrom column s.indent s.outer s.tokens
    { s with indent := indent, outer := outer, tokens := tokens }

/-! ## Blanks and comments -/

/-- Pass blanks, comments and line breaks.  A byte order mark may start a line and takes
up a column.  A tab does not count as a blank where a block key may start. -/
def skipSpace : (fuel : Nat) → Scan → Scan
  | 0, s => s
  | fuel + 1, s =>
    let c := s.cursor
    let c := if c.column = 0 ∧ c.rest.head? = some byteOrderMark then c.next else c
    let tabs := s.inFlow || !s.keyAllowed
    let c := (c.skipWhile fun ch => ch = ' ' || (tabs && ch = '\t')).skipComment
    if startsBreak c.rest then
      skipSpace fuel { s with cursor := c.nextLine, keyAllowed := s.keyAllowed || !s.inFlow }
    else { s with cursor := c }

/-! ## Tokens -/

/-- Leave all blocks, for a line that belongs to no document. -/
def leaveBlocks (s : Scan) : Option Scan := (s.closeBlocks (-1)).dropKey.map (·.allowKey false)

/-- A directive. -/
def scanDirective (s : Scan) : Option Scan := do
  let s ← s.leaveBlocks
  let (t, c) ← readDirective s.cursor
  some { s.push t with cursor := c }

/-- The mark of a document's start or end. -/
def scanDocumentMark (s : Scan) (t : Token) : Option Scan := do
  let s ← s.leaveBlocks
  some { s.push t with cursor := s.cursor.skip 3 }

/-- An opening bracket or brace. -/
def scanFlowStart (s : Scan) (t : Token) : Option Scan := do
  let s ← s.noteKey
  some { (s.allowKey true).pushMark t with keys := none :: s.keys }

/-- A closing bracket or brace. -/
def scanFlowEnd (s : Scan) (t : Token) : Option Scan := do
  let s ← s.dropKey
  let keys := if s.inFlow then s.keys.tail else s.keys
  some { (s.allowKey false).pushMark t with keys := keys }

/-- A comma between brackets or braces. -/
def scanFlowEntry (s : Scan) : Option Scan := do
  let s ← s.dropKey
  some ((s.allowKey true).pushMark .flowEntry)

/-- The dash of a block sequence. -/
def scanBlockEntry (s : Scan) : Option Scan := do
  if !s.inFlow ∧ !s.keyAllowed then none
  let s ← (s.openBlock s.cursor.column s.tokens.size .blockSequence).dropKey
  some ((s.allowKey true).pushMark .blockEntry)

/-- The question mark of a key. -/
def scanKey (s : Scan) : Option Scan := do
  if !s.inFlow ∧ !s.keyAllowed then none
  let s ← (s.openBlock s.cursor.column s.tokens.size .blockMapping).dropKey
  some ((s.allowKey !s.inFlow).pushMark .key)

/-- The colon of a value. -/
def scanValue (s : Scan) : Option Scan :=
  match s.key? with
  | some k =>
    let s := { s with tokens := s.tokens.insertIdxIfInBounds k.number .key }
    let s := (s.openBlock k.column k.number .blockMapping).setKey none
    some ((s.allowKey false).pushMark .value)
  | none =>
    if !s.inFlow ∧ !s.keyAllowed then none
    else
      let s := s.openBlock s.cursor.column s.tokens.size .blockMapping
      some ((s.allowKey !s.inFlow).pushMark .value)

/-- An anchor or alias. -/
def scanAnchor (s : Scan) (token : String → Token) : Option Scan := do
  let s ← s.noteKey
  let (name, c) ← readAnchor s.cursor
  some { (s.allowKey false).push (token name) with cursor := c }

/-- A tag. -/
def scanTag (s : Scan) : Option Scan := do
  let s ← s.noteKey
  let (t, c) ← readTag s.inFlow s.cursor
  some { (s.allowKey false).push t with cursor := c }

/-- A block scalar. -/
def scanBlock (s : Scan) (style : Style) : Option Scan := do
  let s ← s.dropKey
  let (text, c) ← readBlock (style = .folded) s.indent s.cursor
  some { (s.allowKey true).push (.scalar style text) with cursor := c }

/-- A quoted scalar. -/
def scanQuoted (s : Scan) (style : Style) (quote : Char) : Option Scan := do
  let s ← s.noteKey
  let (text, c) ← readQuoted quote s.cursor
  some { (s.allowKey false).push (.scalar style text) with cursor := c }

/-- A plain scalar. -/
def scanPlain (s : Scan) : Option Scan := do
  let s ← s.noteKey
  let (text, broken, c) ← readPlain s.inFlow (s.indent + 1) s.cursor
  some { (s.allowKey broken).push (.scalar .plain text) with cursor := c }

/-- A character that cannot start a plain scalar without more. -/
def isIndicator (c : Char) : Bool :=
  isFlowIndicator c || c = '-' || c = '?' || c = ':' || c = '#' || c = '&' || c = '*' || c = '!' ||
    c = '|' || c = '>' || c = '\'' || c = '"' || c = '%' || c = '@' || c = '`'

/-- Whether a plain scalar starts with a character. -/
def startsPlain (s : Scan) (c : Char) : Bool :=
  !(isBlank c || isBreak c || isIndicator c) || (c = '-' && !startsBlank s.tail) ||
    (!s.inFlow && (c = '?' || c = ':') && !endsWord s.tail)

/-- The token that starts with a character. -/
def scanAt (s : Scan) (c : Char) : Option Scan :=
  let atStart := s.cursor.column = 0
  let apart := endsWord s.tail
  if atStart ∧ c = '%' then s.scanDirective
  else if atStart ∧ startsMark '-' s.cursor.rest then s.scanDocumentMark .documentStart
  else if atStart ∧ startsMark '.' s.cursor.rest then s.scanDocumentMark .documentEnd
  else if c = '[' then s.scanFlowStart .flowSequence
  else if c = '\x7b' then s.scanFlowStart .flowMapping
  else if c = ']' then s.scanFlowEnd .flowSequenceEnd
  else if c = '\x7d' then s.scanFlowEnd .flowMappingEnd
  else if c = ',' then s.scanFlowEntry
  else if c = '-' ∧ apart then s.scanBlockEntry
  else if c = '?' ∧ (s.inFlow ∨ apart) then s.scanKey
  else if c = ':' ∧ (s.inFlow ∨ apart) then s.scanValue
  else if c = '*' then s.scanAnchor .alias
  else if c = '&' then s.scanAnchor .anchor
  else if c = '!' then s.scanTag
  else if c = '|' ∧ !s.inFlow then s.scanBlock .literal
  else if c = '>' ∧ !s.inFlow then s.scanBlock .folded
  else if c = '\'' then s.scanQuoted .singleQuoted c
  else if c = '"' then s.scanQuoted .doubleQuoted c
  else if s.startsPlain c then s.scanPlain
  else none

/-- Scan up to the end of the text. -/
def scanAll : (fuel : Nat) → Scan → Option (Array Token)
  | 0, _ => none
  | fuel + 1, s => do
    let s ← (skipSpace s.cursor.fuel s).dropStale
    let s := s.closeBlocks s.cursor.column
    match s.head? with
    | none => (s.leaveBlocks).map (·.tokens)
    | some c => scanAll fuel (← s.scanAt c)

end Scan

/-- The tokens of a text, which holds allowed characters only. -/
def Token.scan? (text : String) : Option (Array Token) :=
  let cs := text.toList
  if !cs.all isAllowed then none
  else Scan.scanAll (cs.length + 2) ⟨⟨cs, 0, 0, 0⟩, #[], -1, [], true, [none]⟩

end Pipeline.Yaml
