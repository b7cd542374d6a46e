import Pipeline.Text.Digits

/-!
# Complaints with a place

A complaint about data may end with the place it is about: ` at line 7 column 3`.
The numbers fit in 64 bits and are shown without zeros in front; a place on line zero
says nothing and is not shown.
-/

namespace Pipeline.Text

/-- A complaint and the place it is about. -/
structure Complaint where
  wording : String
  /-- The line, zero when there is no place. -/
  line : Nat
  column : Nat
  deriving DecidableEq, Repr

namespace Complaint

/-- A word and a number at the end of a text, which is given backwards: the number and
the text before the word. -/
def splitNumber? (word : String) (backwards : List Char) : Option (Nat × List Char) := do
  let digits := backwards.takeWhile Char.isDigit
  let before := backwards.drop digits.length
  let n ← number? 10 digits.reverse
  if n < Nat.pow 2 64 ∧ before.take word.length = word.toList.reverse then
    some (n, before.drop word.length)
  else none

/-- The complaint that a text is. -/
def ofText (text : String) : Complaint :=
  let split? : Option Complaint := do
    let (column, before) ← splitNumber? " column " text.toList.reverse
    let (line, before) ← splitNumber? " at line " before
    some ⟨String.ofList before.reverse, line, column⟩
  split?.getD ⟨text, 0, 0⟩

/-- The text of a complaint. -/
def text (c : Complaint) : String :=
  if c.line = 0 then c.wording
  else c.wording ++ " at line " ++ toString c.line ++ " column " ++ toString c.column

end Complaint

end Pipeline.Text
