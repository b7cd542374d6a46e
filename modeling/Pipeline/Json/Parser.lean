import Pipeline.Json.Fault
import Pipeline.Text.Digits
import Pipeline.Value

/-!
# Reading JSON text

`Json.parse` reads one value with blanks around it and nothing after it.  Lists
and mappings nest at most 127 deep.  Of equal keys in a mapping the last one
counts.  A text holds no raw character below U+0020, and an escaped surrogate
must be one of a pair.

A number without point and exponent is an integer when it fits, and `-0` is the
binary zero.  Any other number is read from as many leading digits as fit in 64
bits: they are rounded to a binary number, which is then multiplied or divided by
a power of ten that is itself rounded.  A number beyond the largest binary number
is refused.

A reader takes the rest of the text and gives what it read and what is left.  Where
it fails, it says how many bytes were left after the one that is wrong.
-/

namespace Pipeline.Json

open Text (digit? number? splitSign)

/-! ## Readers -/

/-- A complaint, and how many bytes are left behind its place. -/
structure Stop where
  complaint : Complaint
  left : Nat
  deriving DecidableEq, Repr

/-- What was read with what is left, or why not. -/
abbrev Reading (α : Type) := Except Stop (α × List Char)

/-- The number of bytes of a text. -/
def bytes (cs : List Char) : Nat := cs.foldr (fun c n => c.utf8Size + n) 0

/-- The next byte is wrong, or is missing. -/
def stopAt {α : Type} (complaint : Complaint) (rest : List Char) : Reading α :=
  .error ⟨complaint, bytes rest - 1⟩

/-- What was read last is wrong. -/
def stopAfter {α : Type} (complaint : Complaint) (rest : List Char) : Reading α :=
  .error ⟨complaint, bytes rest⟩

/-- The next byte is wrong in one way, or is missing in another. -/
def stopAtOrEnd {α : Type} (complaint missing : Complaint) (rest : List Char) : Reading α :=
  if rest.isEmpty then stopAt missing rest else stopAt complaint rest

/-! ## Numbers -/

/-- The largest number that leading digits may reach. -/
def maxLeading : Nat := Nat.pow 2 64 - 1

/-- The largest exponent that is taken at its word. -/
def maxExponent : Nat := Nat.pow 2 31 - 1

/-- Extend a number by digits for as long as it stays below a bound: the number, how
many digits were taken, and the rest. -/
def takeDigits (bound : Nat) : Nat → List Char → Nat × Nat × List Char
  | n, [] => (n, 0, [])
  | n, c :: rest =>
    let extended := n * 10 + (digit? c).getD 0
    if c.isDigit ∧ extended ≤ bound then
      let (m, count, rest') := takeDigits bound extended rest
      (m, count + 1, rest')
    else (n, 0, c :: rest)

/-- Skip digits: how many there were, and the rest. -/
def skipDigits : List Char → Nat × List Char
  | [] => (0, [])
  | c :: rest =>
    if c.isDigit then
      let (count, rest') := skipDigits rest
      (count + 1, rest')
    else (0, c :: rest)

/-- Whether the text starts with a digit. -/
def startsWithDigit : List Char → Bool
  | c :: _ => c.isDigit
  | [] => false

/-- Divide by a power of ten in steps of at most 308 places. -/
def shrink (x : Binary64) (places : Nat) : Nat → Option Binary64
  | 0 => x.divPowerOfTen (min places 308)
  | n + 1 =>
    if places ≤ 308 ∨ x.mantissa = 0 then x.divPowerOfTen (min places 308)
    else do shrink (← x.divPowerOfTen 308) (places - 308) n

/-- The binary number of leading digits and a scale. -/
def scaled (negative : Bool) (digits : Nat) (scale : Int) : Option Binary64 := do
  let x ← Binary64.ofRatio negative digits 1
  if x.mantissa = 0 then some x
  else if 0 ≤ scale then
    if scale ≤ 308 then x.mulPowerOfTen scale.toNat else none
  else shrink x (-scale).toNat 3

/-- The number of leading digits and a scale, all read. -/
def finishNumber (negative : Bool) (digits : Nat) (scale : Int) (rest : List Char) :
    Reading Number :=
  match scaled negative digits scale with
  | some x => .ok (.float x, rest)
  | none => stopAfter .numberOutOfRange rest

/-- Read an exponent, after its letter.  One that is too large makes zero, or a
number that is out of range once the first digit too many is read. -/
def readExponent (negative : Bool) (digits : Nat) (scale : Int) (cs : List Char) :
    Reading Number :=
  let (down, cs) := splitSign cs
  if !startsWithDigit cs then stopAtOrEnd .invalidNumber .endInValue cs
  else
    let (e, _, rest) := takeDigits maxExponent 0 cs
    if startsWithDigit rest then
      if digits ≠ 0 ∧ !down then stopAfter .numberOutOfRange rest.tail
      else .ok (.float ⟨negative, 0, 0⟩, (skipDigits rest).2)
    else finishNumber negative digits (if down then scale - e else scale + e) rest

/-- Read what may follow the digits of a binary number: an exponent. -/
def readScale (negative : Bool) (digits : Nat) (scale : Int) : List Char → Reading Number
  | 'e' :: rest | 'E' :: rest => readExponent negative digits scale rest
  | rest => finishNumber negative digits scale rest

/-- Read a fraction, after its point. -/
def readFraction (negative : Bool) (digits : Nat) (scale : Int) (cs : List Char) :
    Reading Number :=
  if startsWithDigit cs then
    let (digits, count, rest) := takeDigits maxLeading digits cs
    readScale negative digits (scale - count) (skipDigits rest).2
  else stopAtOrEnd .invalidNumber .endInValue cs

/-- Read what may follow the digits before the point. -/
def readTail (negative : Bool) (digits : Nat) (scale : Int) : List Char → Reading Number
  | '.' :: rest => readFraction negative digits scale rest
  | rest => readScale negative digits scale rest

/-- An integer, or the binary number where it does not fit. -/
def integer (negative : Bool) (n : Nat) (rest : List Char) : Reading Number :=
  if !negative then .ok (.int n, rest)
  else if 0 < n ∧ n ≤ Nat.pow 2 63 then .ok (.int (-n), rest)
  else finishNumber true n 0 rest

/-- Read a number after its sign. -/
def readNumber (negative : Bool) : List Char → Reading Number
  | [] => stopAt .endInValue []
  | c :: rest =>
    if !c.isDigit then stopAt .invalidNumber (c :: rest)
    else if c = '0' ∧ startsWithDigit rest then stopAt .invalidNumber rest
    else
      let (n, _, rest) := takeDigits maxLeading 0 (c :: rest)
      let (dropped, rest') := skipDigits rest
      if dropped = 0 then
        match rest with
        | '.' :: _ | 'e' :: _ | 'E' :: _ => readTail negative n 0 rest
        | _ => integer negative n rest
      else readTail negative n dropped rest'

/-! ## Texts -/

/-- Read the four digits of an escaped code. -/
def readCode : List Char → Reading Nat
  | cs@(a :: b :: c :: d :: rest) =>
    match number? 16 [a, b, c, d] with
    | some n => .ok (n, rest)
    | none => .error ⟨.invalidEscape, bytes cs - 4⟩
  | cs => if bytes cs < 4 then stopAfter .endInQuotes [] else .error ⟨.invalidEscape, bytes cs - 4⟩

/-- The character that a letter after a backslash stands for. -/
def unescape? : Char → Option Char
  | '"' => some '"'
  | '\\' => some '\\'
  | '/' => some '/'
  | 'b' => some '\x08'
  | 'f' => some '\x0c'
  | 'n' => some '\n'
  | 'r' => some '\r'
  | 't' => some '\t'
  | _ => none

/-- Whether a code is that of a first surrogate. -/
def isHighSurrogate (n : Nat) : Bool := 0xD800 ≤ n && n < 0xDC00

/-- Whether a code is that of a second surrogate. -/
def isLowSurrogate (n : Nat) : Bool := 0xDC00 ≤ n && n < 0xE000

/-- Read the second surrogate of a pair. -/
def readPair (high : Nat) : List Char → Reading Char
  | '\\' :: 'u' :: rest =>
    match readCode rest with
    | .error e => .error e
    | .ok (low, rest) =>
      if isLowSurrogate low then
        .ok (Char.ofNat (0x10000 + (high - 0xD800) * 0x400 + (low - 0xDC00)), rest)
      else stopAfter .loneSurrogate rest
  | '\\' :: rest => stopAtOrEnd .pairExpected .endInQuotes rest
  | rest => stopAtOrEnd .pairExpected .endInQuotes rest

/-- Read an escape, after its backslash. -/
def readEscape : List Char → Reading Char
  | [] => stopAt .endInQuotes []
  | 'u' :: rest =>
    match readCode rest with
    | .error e => .error e
    | .ok (n, rest) =>
      if isLowSurrogate n then stopAfter .loneSurrogate rest
      else if isHighSurrogate n then readPair n rest
      else .ok (Char.ofNat n, rest)
  | c :: rest =>
    match unescape? c with
    | some ch => .ok (ch, rest)
    | none => stopAt .invalidEscape (c :: rest)

/-- Read a text after its opening quote; the characters read so far are in
reverse order. -/
def readText : Nat → List Char → List Char → Reading String
  | 0, _, cs => stopAt .endInQuotes cs
  | _ + 1, _, [] => stopAt .endInQuotes []
  | _ + 1, acc, '"' :: rest => .ok (String.ofList acc.reverse, rest)
  | fuel + 1, acc, '\\' :: rest =>
    match readEscape rest with
    | .ok (ch, rest) => readText fuel (ch :: acc) rest
    | .error e => .error e
  | fuel + 1, acc, c :: rest =>
    if c.toNat < 0x20 then stopAt .controlCharacter (c :: rest) else readText fuel (c :: acc) rest

/-! ## Values -/

/-- The blanks between tokens. -/
def isBlank (c : Char) : Bool := c = ' ' || c = '\n' || c = '\t' || c = '\r'

/-- The text after its leading blanks. -/
def skipBlanks (cs : List Char) : List Char := cs.dropWhile isBlank

/-- Read the rest of a word. -/
def readWord (v : Value) : (word : List Char) → List Char → Reading Value
  | [], rest => .ok (v, rest)
  | w :: word, c :: rest =>
    if c = w then readWord v word rest else stopAt .wordExpected (c :: rest)
  | _ :: _, [] => stopAt .endInValue []

/-- What was read, as a value. -/
def asValue {α : Type} (f : α → Value) : Reading α → Reading Value
  | .ok (a, rest) => .ok (f a, rest)
  | .error e => .error e

mutual

/-- Read a value; `depth` levels may open below it. -/
def readValue : Nat → Nat → List Char → Reading Value
  | 0, _, cs => stopAt .endInValue cs
  | fuel + 1, depth, cs =>
    match skipBlanks cs with
    | [] => stopAt .endInValue []
    | 'n' :: rest => readWord .null ['u', 'l', 'l'] rest
    | 't' :: rest => readWord (.bool true) ['r', 'u', 'e'] rest
    | 'f' :: rest => readWord (.bool false) ['a', 'l', 's', 'e'] rest
    | '"' :: rest => asValue .string (readText fuel [] rest)
    | '-' :: rest => asValue .number (readNumber true rest)
    | '[' :: rest =>
      match depth with
      | 0 => stopAt .tooDeep ('[' :: rest)
      | depth + 1 =>
        match skipBlanks rest with
        | [] => stopAt .endInList []
        | ']' :: rest => .ok (.list [], rest)
        | rest => asValue .list (readElements fuel depth [] rest)
    | '\x7b' :: rest =>
      match depth with
      | 0 => stopAt .tooDeep ('\x7b' :: rest)
      | depth + 1 =>
        match skipBlanks rest with
        | [] => stopAt .endInMapping []
        | '\x7d' :: rest => .ok (.mapping ∅, rest)
        | rest => asValue .mapping (readMembers fuel depth ∅ rest)
    | c :: rest =>
      if c.isDigit then asValue .number (readNumber false (c :: rest))
      else stopAt .valueExpected (c :: rest)

/-- Read the elements of a list up to its closing bracket; those read so far are in
reverse order. -/
def readElements : Nat → Nat → List Value → List Char → Reading (List Value)
  | 0, _, _, cs => stopAt .endInList cs
  | fuel + 1, depth, acc, cs =>
    match readValue fuel depth cs with
    | .error e => .error e
    | .ok (x, rest) =>
      match skipBlanks rest with
      | [] => stopAt .endInList []
      | ',' :: rest =>
        match skipBlanks rest with
        | [] => stopAt .endInValue []
        | ']' :: rest => stopAt .trailingComma (']' :: rest)
        | rest => readElements fuel depth (x :: acc) rest
      | ']' :: rest => .ok ((x :: acc).reverse, rest)
      | rest => stopAt .commaOrBracketExpected rest

/-- Read the members of a mapping up to its closing brace. -/
def readMembers : Nat → Nat → Record → List Char → Reading Record
  | 0, _, _, cs => stopAt .endInMapping cs
  | fuel + 1, depth, acc, cs =>
    match cs with
    | '"' :: rest =>
      match readText fuel [] rest with
      | .error e => .error e
      | .ok (key, rest) =>
        match skipBlanks rest with
        | [] => stopAt .endInMapping []
        | ':' :: rest =>
          match readValue fuel depth rest with
          | .error e => .error e
          | .ok (x, rest) =>
            match skipBlanks rest with
            | [] => stopAt .endInMapping []
            | ',' :: rest =>
              match skipBlanks rest with
              | [] => stopAt .endInValue []
              | '\x7d' :: rest => stopAt .trailingComma ('\x7d' :: rest)
              | rest => readMembers fuel depth (acc.insert key x) rest
            | '\x7d' :: rest => .ok (acc.insert key x, rest)
            | rest => stopAt .commaOrBraceExpected rest
        | rest => stopAt .colonExpected rest
    | rest => stopAt .keyNotText rest

end

/-- How deep lists and mappings may nest. -/
def maxDepth : Nat := 127

/-- The line and column after some bytes of a text that starts at a place. -/
def placeAfter : (count : Nat) → List Char → (line column : Nat) → Nat × Nat
  | 0, _, line, column => (line, column)
  | _ + 1, [], line, column => (line, column)
  | n + 1, c :: rest, line, column =>
    if c = '\n' then placeAfter n rest (line + 1) 0
    else
      let size := min (n + 1) c.utf8Size
      placeAfter (n + 1 - size) rest line (column + size)
termination_by _ cs => cs.length

/-- The fault of a text where a reader stopped. -/
def Stop.fault (s : Stop) (cs : List Char) : Fault :=
  let (line, column) := placeAfter (bytes cs - s.left) cs 1 0
  ⟨s.complaint, line, column⟩

/-- Read a value with nothing after it but blanks. -/
def readAll (cs : List Char) : Reading Value :=
  match readValue (2 * cs.length + 2) maxDepth cs with
  | .error e => .error e
  | .ok (x, rest) =>
    match skipBlanks rest with
    | [] => .ok (x, [])
    | rest => stopAt .trailingText rest

/-- The value that a text writes, or what is wrong with the text. -/
def parse (text : String) : Except Fault Value :=
  match readAll text.toList with
  | .ok (x, _) => .ok x
  | .error s => .error (s.fault text.toList)

end Pipeline.Json
