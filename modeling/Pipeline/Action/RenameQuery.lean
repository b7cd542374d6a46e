import Pipeline.Error.Execution

/-!
# Rename queries

A query such as `new <- old ; other <- another` lists key renames.  Its parts are
separated by semicolons; a part has exactly one pointer `<-`, from the old key on
its right to the new key on its left, and blanks around the keys do not count.
-/

namespace Pipeline

/-- One key to another. -/
structure Rename where
  old : String
  new : String
  deriving DecidableEq, Repr

/-- A list of renames, with the text it was read from. -/
structure RenameQuery where
  text : String
  renames : List Rename
  deriving DecidableEq, Repr

namespace RenameQuery

/-- Whether a character is a blank. -/
def isBlank (c : Char) : Bool :=
  let n := c.toNat
  (0x9 ≤ n && n ≤ 0xd) || n = 0x20 || n = 0x85 || n = 0xa0 || n = 0x1680 ||
    (0x2000 ≤ n && n ≤ 0x200a) || n = 0x2028 || n = 0x2029 || n = 0x202f || n = 0x205f || n = 0x3000

/-- The text without the blanks at its ends. -/
def trim (cs : List Char) : List Char :=
  ((cs.dropWhile isBlank).reverse.dropWhile isBlank).reverse

/-- Put a character in front of the first piece. -/
def consHead (c : Char) : List (List Char) → List (List Char)
  | [] => [[c]]
  | piece :: rest => (c :: piece) :: rest

/-- The pieces between semicolons. -/
def parts : List Char → List (List Char)
  | [] => [[]]
  | c :: rest => if c = ';' then [] :: parts rest else consHead c (parts rest)

/-- The pieces between pointers, found from the left. -/
def pieces : List Char → List (List Char)
  | [] => [[]]
  | '<' :: '-' :: rest => [] :: pieces rest
  | c :: rest => consHead c (pieces rest)

/-- Read one part. -/
def parsePart (part : List Char) : Except ExecutionError Rename :=
  match pieces part with
  | [new, old] => .ok ⟨String.ofList (trim old), String.ofList (trim new)⟩
  | _ => .error (.invalidQuery (String.ofList part))

/-- Read the parts in order. -/
def parseParts : List (List Char) → Except ExecutionError (List Rename)
  | [] => .ok []
  | part :: rest => do
    let rename ← parsePart part
    .ok (rename :: (← parseParts rest))

/-- Read a query. -/
def parse (text : String) : Except ExecutionError RenameQuery := do
  .ok ⟨text, ← parseParts (parts text.toList)⟩

end RenameQuery

end Pipeline
