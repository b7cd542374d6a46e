import Pipeline.Toml.Moment
import Pipeline.Toml.Text
import Pipeline.Toml.Node

/-!
# Statements of TOML

A document is a list of statements: headers that open a table or add one to an array
of tables, and entries that put a value at a key of the open table.  A key is a
path of names with dots between them.  Keys have less than eighty names, and values
nest less than eighty deep.
-/

namespace Pipeline.Toml

open Text (isDigitOf number splitSign)

/-- A path of names, the last one apart. -/
structure Key where
  path : List String
  last : String
  deriving DecidableEq, Repr

/-- All names of a key. -/
def Key.names (k : Key) : List String := k.path ++ [k.last]

/-- One statement of a document. -/
inductive Statement
  /-- Open a table. -/
  | table (key : Key)
  /-- Add a table to an array of tables, and open it. -/
  | element (key : Key)
  /-- Put a value at a key of the open table. -/
  | entry (key : Key) (value : Node)

/-! ## Keys -/

/-- A character of a name without quotes. -/
def isBare (c : Char) : Bool := c.isAlphanum || c = '_' || c = '-'

/-- Read one name. -/
def readName (cs : List Char) : Option (String × List Char) :=
  match cs with
  | '"' :: _ | '\'' :: _ => readShort cs
  | _ =>
    let name := cs.takeWhile isBare
    if name.isEmpty then none else some (String.ofList name, cs.dropWhile isBare)

/-- Read names with dots between them. -/
def readNames : (fuel : Nat) → List Char → Option (List String × List Char)
  | 0, _ => none
  | fuel + 1, cs => do
    let (name, rest) ← readName (skipBlanks cs)
    match skipBlanks rest with
    | '.' :: rest =>
      let (names, rest) ← readNames fuel rest
      some (name :: names, rest)
    | rest => some ([name], rest)

/-- The longest key, and one more than the deepest nesting of values. -/
def maxDepth : Nat := 79

/-- Read a key. -/
def readKey (cs : List Char) : Option (Key × List Char) := do
  let (names, rest) ← readNames maxDepth cs
  match names.getLast? with
  | some last => some (⟨names.dropLast, last⟩, rest)
  | none => none

/-! ## Numbers -/

/-- Read digits with single underscores between them. -/
def readDigits (isDigit : Char → Bool) : List Char → Option (List Char × List Char)
  | c :: rest =>
    if !isDigit c then none
    else
      match rest with
      | '_' :: d :: rest' =>
        if isDigit d then (readDigits isDigit (d :: rest')).map fun (ds, rest) => (c :: ds, rest)
        else none
      | ['_'] => none
      | d :: rest' =>
        if isDigit d then (readDigits isDigit (d :: rest')).map fun (ds, rest) => (c :: ds, rest)
        else some ([c], d :: rest')
      | [] => some ([c], [])
  | [] => none

/-- An integer, if it fits in 64 bits with a sign. -/
def integer? (n : Int) : Option Node :=
  if Number.minInt ≤ n ∧ n ≤ Number.maxSigned then some (.integer n) else none

/-- Read an integer to a base, after its mark. -/
def readBased (base : Nat) (cs : List Char) : Option (Node × List Char) := do
  let (ds, rest) ← readDigits (isDigitOf base) cs
  some (← integer? (number base ds), rest)

/-- A number with a fraction or an exponent.  One beyond the largest number is
refused, and one beyond the smallest is not finite. -/
def float? (negative : Bool) (digits : Nat) (scale : Int) : Option Node :=
  match Binary64.ofDecimal negative digits scale with
  | some x => some (.float (some x))
  | none => if negative then some (.float none) else none

/-- Read the exponent of a number, if there is one. -/
def readPower : List Char → Option (Int × List Char)
  | 'e' :: rest | 'E' :: rest =>
    let (down, rest) := splitSign rest
    (readDigits Char.isDigit rest).map fun (ds, rest) =>
      (if down then -(number 10 ds : Int) else number 10 ds, rest)
  | rest => some (0, rest)

/-- Read the digits before the point: a zero has no digits after it. -/
def readWhole : List Char → Option (List Char × List Char)
  | '0' :: rest => some (['0'], rest)
  | cs => readDigits Char.isDigit cs

/-- Read a decimal number after its sign. -/
def readDecimal (negative : Bool) (cs : List Char) : Option (Node × List Char) := do
  let (ds, rest) ← readWhole cs
  match rest with
  | '.' :: rest =>
    let (fraction, rest) ← readDigits Char.isDigit rest
    let (power, rest) ← readPower rest
    some (← float? negative (number 10 (ds ++ fraction)) (power - fraction.length), rest)
  | 'e' :: _ | 'E' :: _ =>
    let (power, rest) ← readPower rest
    some (← float? negative (number 10 ds) power, rest)
  | rest =>
    let n : Int := number 10 ds
    some (← integer? (if negative then -n else n), rest)

/-- Read a number after its sign, or a word for one that is not finite. -/
def readSigned (negative : Bool) : List Char → Option (Node × List Char)
  | 'i' :: 'n' :: 'f' :: rest | 'n' :: 'a' :: 'n' :: rest => some (.float none, rest)
  | cs => readDecimal negative cs

/-- Read a number. -/
def readNumber : List Char → Option (Node × List Char)
  | '+' :: rest => readSigned false rest
  | '-' :: rest => readSigned true rest
  | '0' :: 'x' :: rest => readBased 16 rest
  | '0' :: 'o' :: rest => readBased 8 rest
  | '0' :: 'b' :: rest => readBased 2 rest
  | cs => readSigned false cs

/-! ## Tables -/

/-- Act on the last of some tables. -/
def onLast (f : Origin → Dict Node → Option (Dict Node)) (ts : List Node) : Option Node :=
  match ts.getLast? with
  | some (.table origin entries) => do
    some (.tables (ts.dropLast ++ [.table origin (← f origin entries)]))
  | _ => none

/-- Put a value at a key of a table that dotted names lead to.  They do not lead into
a table that has a header or stands between braces, and the table at their end must
have come to be by dotted names. -/
def putDotted (key : String) (value : Node) :
    List String → Origin → Dict Node → Option (Dict Node)
  | [], origin, entries =>
    if origin ≠ .dotted ∨ entries.contains key then none else some (entries.insert key value)
  | name :: path, _, entries => do
    let node ← match entries.get? name with
      | none => do some (.table .dotted (← putDotted key value path .dotted ∅))
      | some (.table origin inner) =>
        if origin = .header ∨ origin = .inline then none
        else do some (.table origin (← putDotted key value path origin inner))
      | some (.tables ts) => onLast (putDotted key value path) ts
      | some _ => none
    some (entries.insert name node)

/-- Put a value at a key of a table; no key is there twice. -/
def putEntry (k : Key) (value : Node) (entries : Dict Node) : Option (Dict Node) :=
  match k.path with
  | [] => if entries.contains k.last then none else some (entries.insert k.last value)
  | path => putDotted k.last value path .header entries

/-! ## Values -/

mutual

/-- Read a value; `depth` levels may open below it. -/
def readNode : (fuel : Nat) → (depth : Nat) → List Char → Option (Node × List Char)
  | 0, _, _ => none
  | fuel + 1, depth, cs =>
    match cs with
    | '"' :: _ | '\'' :: _ => (readString cs).map fun (s, rest) => (.string s, rest)
    | '[' :: rest =>
      match depth with
      | 0 => none
      | depth + 1 => (readArray fuel depth [] rest).map fun (xs, rest) => (.array xs, rest)
    | '\x7b' :: rest =>
      match depth with
      | 0 => none
      | depth + 1 =>
        match skipBlanks rest with
        | '\x7d' :: rest => some (.table .inline ∅, rest)
        | rest =>
          (readInline fuel depth ∅ rest).map fun (entries, rest) => (.table .inline entries, rest)
    | 't' :: 'r' :: 'u' :: 'e' :: rest => some (.boolean true, rest)
    | 'f' :: 'a' :: 'l' :: 's' :: 'e' :: rest => some (.boolean false, rest)
    | _ =>
      if startsDate cs ∨ startsTime cs then
        (readMoment cs).map fun (text, rest) => (.moment text, rest)
      else readNumber cs

/-- Read the elements of an array up to its closing bracket; those read so far are in
reverse order. -/
def readArray : (fuel : Nat) → (depth : Nat) → List Node → List Char →
    Option (List Node × List Char)
  | 0, _, _, _ => none
  | fuel + 1, depth, acc, cs =>
    match skipLines cs.length cs with
    | ']' :: rest => some (acc.reverse, rest)
    | cs => do
      let (x, rest) ← readNode fuel depth cs
      match skipLines rest.length rest with
      | ',' :: rest => readArray fuel depth (x :: acc) rest
      | ']' :: rest => some ((x :: acc).reverse, rest)
      | _ => none

/-- Read the entries of a table up to its closing brace. -/
def readInline : (fuel : Nat) → (depth : Nat) → Dict Node → List Char →
    Option (Dict Node × List Char)
  | 0, _, _, _ => none
  | fuel + 1, depth, entries, cs => do
    let (key, rest) ← readKey cs
    match rest with
    | '=' :: rest =>
      let (x, rest) ← readNode fuel depth (skipBlanks rest)
      let entries ← putEntry key x entries
      match skipBlanks rest with
      | ',' :: rest => readInline fuel depth entries rest
      | '\x7d' :: rest => some (entries, rest)
      | _ => none
    | _ => none

end

/-! ## Statements -/

/-- Read a statement and the rest of its line. -/
def readStatement (cs : List Char) : Option (Statement × List Char) :=
  match cs with
  | '[' :: '[' :: rest => do
    let (key, rest) ← readKey rest
    match rest with
    | ']' :: ']' :: rest => some (.element key, ← lineEnd? rest)
    | _ => none
  | '[' :: rest => do
    let (key, rest) ← readKey rest
    match rest with
    | ']' :: rest => some (.table key, ← lineEnd? rest)
    | _ => none
  | _ => do
    let (key, rest) ← readKey cs
    match rest with
    | '=' :: rest =>
      let (x, rest) ← readNode (2 * rest.length + 2) maxDepth (skipBlanks rest)
      some (.entry key x, ← lineEnd? rest)
    | _ => none

/-- Read statements up to the end of the text. -/
def readStatements : (fuel : Nat) → List Char → Option (List Statement)
  | 0, _ => none
  | fuel + 1, cs =>
    match skipBlanks cs with
    | [] => some []
    | rest =>
      match lineEnd? rest with
      | some rest => readStatements fuel rest
      | none => do
        let (s, rest) ← readStatement rest
        some (s :: (← readStatements fuel rest))

/-- The statements of a text. -/
def Statement.parse? (text : String) : Option (List Statement) :=
  match text.toList with
  | '\uFEFF' :: cs => readStatements (cs.length + 1) cs
  | cs => readStatements (cs.length + 1) cs

end Pipeline.Toml
