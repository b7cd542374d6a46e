import Pipeline.Text.Digits
import Pipeline.Yaml.Cursor
import Pipeline.Yaml.Token

/-!
# Scalars of YAML

A plain or quoted scalar may go over several lines: a single line break counts as a
space, and of several ones the first is dropped.  A block scalar keeps its lines or
folds them, and says what becomes of the line breaks at its end.

The characters read so far are in reverse order.
-/

namespace Pipeline.Yaml

/-- What stands between two runs of characters. -/
structure Gap where
  /-- The blanks, in reverse order, when there is no line break. -/
  blanks : List Char
  /-- The first line break. -/
  leading : List Char
  /-- The other line breaks. -/
  trailing : List Char
  /-- Whether there is a line break. -/
  broken : Bool
  deriving Inhabited

namespace Gap

/-- Nothing between two runs. -/
def none : Gap := ⟨[], [], [], false⟩

/-- A line break that is not part of the text. -/
def escaped : Gap := ⟨[], [], [], true⟩

/-- What line breaks count as. -/
def fold (leading trailing : List Char) : List Char :=
  match leading with
  | '\n' :: _ => if trailing.isEmpty then [' '] else trailing
  | _ => leading ++ trailing

/-- The text with what the gap counts as. -/
def join (g : Gap) (acc : List Char) : List Char :=
  if g.broken then (fold g.leading g.trailing).reverse ++ acc else g.blanks ++ acc

/-- Pass blanks and line breaks.  After a line break, no tab may stand before the
column `indent`. -/
def read (indent : Int) : (fuel : Nat) → Gap → Cursor → Option (Gap × Cursor)
  | 0, g, c => some (g, c)
  | fuel + 1, g, c =>
    match c.rest with
    | [] => some (g, c)
    | ch :: _ =>
      if isBlank ch then
        if g.broken ∧ c.column < indent ∧ ch = '\t' then Option.none
        else read indent fuel (if g.broken then g else { g with blanks := ch :: g.blanks }) c.next
      else if isBreak ch then
        let g := if g.broken then { g with trailing := g.trailing ++ c.lineBreak }
          else { g with blanks := [], leading := c.lineBreak, broken := true }
        read indent fuel g c.nextLine
      else some (g, c)

end Gap

/-! ## Quoted scalars -/

/-- The character that a letter after a backslash stands for. -/
def unescape? : Char → Option Char
  | '0' => some '\x00'
  | 'a' => some '\x07'
  | 'b' => some '\x08'
  | 't' | '\t' => some '\t'
  | 'n' => some '\n'
  | 'v' => some '\x0b'
  | 'f' => some '\x0c'
  | 'r' => some '\r'
  | 'e' => some '\x1b'
  | ' ' => some ' '
  | '"' => some '"'
  | '/' => some '/'
  | '\\' => some '\\'
  | 'N' => some (Char.ofNat 0x85)
  | '_' => some (Char.ofNat 0xA0)
  | 'L' => some (Char.ofNat 0x2028)
  | 'P' => some (Char.ofNat 0x2029)
  | _ => none

/-- How many digits the code after a letter has. -/
def codeLength? : Char → Option Nat
  | 'x' => some 2
  | 'u' => some 4
  | 'U' => some 8
  | _ => none

/-- Read an escape, at its backslash. -/
def readEscape (c : Cursor) : Option (Char × Cursor) :=
  match c.rest with
  | _ :: letter :: rest =>
    match codeLength? letter with
    | some n => do
      let ds := rest.take n
      if ds.length < n then none
      let code ← Text.number? 16 ds
      if code.isValidChar then some (Char.ofNat code, c.skip (n + 2)) else none
    | none => (unescape? letter).map fun ch => (ch, c.skip 2)
  | _ => none

/-- Read a run of characters between quotes, up to a blank, a line break or the
closing quote.  The gap says whether the run ended with an escaped line break. -/
def readQuotedRun (quote : Char) :
    (fuel : Nat) → List Char → Cursor → Option (List Char × Gap × Cursor)
  | 0, acc, c => some (acc, .none, c)
  | fuel + 1, acc, c =>
    match c.rest with
    | [] => some (acc, .none, c)
    | ch :: rest =>
      if isBlank ch ∨ isBreak ch then some (acc, .none, c)
      else if ch = quote then
        match quote, rest with
        | '\'', '\'' :: _ => readQuotedRun quote fuel ('\'' :: acc) (c.skip 2)
        | _, _ => some (acc, .none, c)
      else if quote = '"' ∧ ch = '\\' then
        if startsBreak rest then some (acc, .escaped, c.next.nextLine)
        else do
          let (ch, c) ← readEscape c
          readQuotedRun quote fuel (ch :: acc) c
      else readQuotedRun quote fuel (ch :: acc) c.next

/-- Read what follows the opening quote. -/
def readQuotedRest (quote : Char) : (fuel : Nat) → List Char → Cursor → Option (String × Cursor)
  | 0, _, _ => none
  | fuel + 1, acc, c =>
    if c.column = 0 ∧ startsDocumentMark c.rest then none
    else if c.rest.isEmpty then none
    else do
      let (acc, gap, c) ← readQuotedRun quote c.fuel acc c
      if c.rest.head? = some quote then some (String.ofList acc.reverse, c.next)
      else
        let (gap, c) ← Gap.read 0 c.fuel gap c
        readQuotedRest quote fuel (gap.join acc) c

/-- Read a quoted scalar, at its opening quote. -/
def readQuoted (quote : Char) (c : Cursor) : Option (String × Cursor) :=
  readQuotedRest quote (c.fuel + 1) [] c.next

/-! ## Plain scalars -/

/-- A character with a meaning of its own between brackets or braces. -/
def isFlowIndicator (c : Char) : Bool :=
  c = ',' || c = '[' || c = ']' || c = '\x7b' || c = '\x7d'

/-- Read a run of characters of a plain scalar. -/
def readPlainRun (flow : Bool) : (fuel : Nat) → List Char → Cursor → Option (List Char × Cursor)
  | 0, acc, c => some (acc, c)
  | fuel + 1, acc, c =>
    match c.rest with
    | [] => some (acc, c)
    | ch :: rest =>
      if isBlank ch ∨ isBreak ch then some (acc, c)
      else if flow ∧ ch = ':' ∧ rest.head?.any (fun d => d = '?' || isFlowIndicator d) then none
      else if (ch = ':' ∧ endsWord rest) ∨ (flow ∧ isFlowIndicator ch) then some (acc, c)
      else readPlainRun flow fuel (ch :: acc) c.next

/-- Whether a plain scalar goes on here. -/
def goesOnPlain (flow : Bool) (c : Cursor) : Bool :=
  match c.rest with
  | [] => false
  | ch :: rest =>
    !(c.column = 0 && startsDocumentMark c.rest) && ch ≠ '#' &&
      !(ch = ':' && endsWord rest) && !(flow && isFlowIndicator ch)

/-- Read a plain scalar from a run on.  Outside of brackets and braces its lines
start at column `indent` or beyond.  The answer says whether a line break follows. -/
def readPlainRest (flow : Bool) (indent : Int) :
    (fuel : Nat) → List Char → Cursor → Option (String × Bool × Cursor)
  | 0, _, _ => none
  | fuel + 1, acc, c => do
    let (acc, c) ← readPlainRun flow c.fuel acc c
    let (gap, c) ← Gap.read indent c.fuel .none c
    if (!flow ∧ c.column < indent) ∨ (!gap.broken ∧ gap.blanks.isEmpty) ∨ !goesOnPlain flow c then
      some (String.ofList acc.reverse, gap.broken, c)
    else readPlainRest flow indent fuel (gap.join acc) c

/-- Read a plain scalar. -/
def readPlain (flow : Bool) (indent : Int) (c : Cursor) : Option (String × Bool × Cursor) :=
  readPlainRest flow indent c.fuel [] c

/-! ## Block scalars -/

/-- What becomes of the line breaks at the end. -/
inductive Chomping
  | strip
  | clip
  | keep
  deriving DecidableEq

/-- Read what becomes of the line breaks at the end, if it is said. -/
def readChomping (c : Cursor) : Option (Chomping × Cursor) :=
  match c.rest with
  | '+' :: _ => some (.keep, c.next)
  | '-' :: _ => some (.strip, c.next)
  | _ => none

/-- Read the number of further columns, if it is said; it is not zero. -/
def readIncrement (c : Cursor) : Option (Nat × Cursor) :=
  match c.rest with
  | ch :: _ =>
    if !ch.isDigit then some (0, c)
    else if ch = '0' then none
    else some (ch.toNat - '0'.toNat, c.next)
  | [] => some (0, c)

/-- Read what follows the indicator of a block scalar. -/
def readBlockHeader (c : Cursor) : Option (Chomping × Nat × Cursor) :=
  match readChomping c with
  | some (chomping, c) => do
    let (increment, c) ← readIncrement c
    some (chomping, increment, c)
  | none => do
    let (increment, c) ← readIncrement c
    if increment = 0 then some (.clip, 0, c)
    else
      match readChomping c with
      | some (chomping, c) => some (chomping, increment, c)
      | none => some (.clip, increment, c)

/-- Pass the spaces before a line's column, and empty lines.  The column is not known
yet when it is zero; the widest line seen so far counts.  The line breaks, the widest
line and the place. -/
def readEmptyLines (indent : Nat) :
    (fuel : Nat) → List Char → Nat → Cursor → Option (List Char × Nat × Cursor)
  | 0, breaks, widest, c => some (breaks, widest, c)
  | fuel + 1, breaks, widest, c =>
    let spaces := (c.rest.takeWhile (· = ' ')).length
    let c := c.skip (if indent = 0 then spaces else min spaces (indent - c.column))
    let widest := max widest c.column
    if (indent = 0 ∨ c.column < indent) ∧ c.rest.head? = some '\t' then none
    else if startsBreak c.rest then
      readEmptyLines indent fuel (breaks ++ c.lineBreak) widest c.nextLine
    else some (breaks, widest, c)

/-- Read the lines of a block scalar from a line on, with the line breaks before it. -/
def readBlockLines (folds : Bool) (indent : Nat) (chomping : Chomping) :
    (fuel : Nat) → List Char → (leading trailing : List Char) → (blank : Bool) → Cursor →
    Option (String × Cursor)
  | 0, _, _, _, _, _ => none
  | fuel + 1, acc, leading, trailing, blank, c =>
    if c.column = indent ∧ !c.rest.isEmpty then do
      let blankNow := startsBlank c.rest
      let joint :=
        if folds ∧ leading.head? = some '\n' ∧ !blank ∧ !blankNow then Gap.fold leading trailing
        else leading ++ trailing
      let line := c.rest.takeWhile fun ch => !isBreak ch
      let c := c.skip line.length
      let leading := c.lineBreak
      let (trailing, _, c) ← readEmptyLines indent c.fuel [] 0 c.nextLine
      readBlockLines folds indent chomping fuel (line.reverse ++ joint.reverse ++ acc) leading
        trailing blankNow c
    else
      let ending := match chomping with
        | .strip => []
        | .clip => leading
        | .keep => leading ++ trailing
      some (String.ofList (ending.reverse ++ acc).reverse, c)

/-- Read a block scalar, at its indicator, inside a block with an indentation. -/
def readBlock (folds : Bool) (outer : Int) (c : Cursor) : Option (String × Cursor) := do
  let (chomping, increment, c) ← readBlockHeader c.next
  let c ← c.endLine?
  let wanted : Nat := if increment = 0 then 0 else (max outer 0).toNat + increment
  let (trailing, widest, c) ← readEmptyLines wanted c.fuel [] 0 c
  let indent := if wanted = 0 then max (max widest (outer + 1).toNat) 1 else wanted
  readBlockLines folds indent chomping c.fuel [] [] trailing false c

end Pipeline.Yaml
