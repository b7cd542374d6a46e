/-!
# Digits and signs

What digits stand for, to a base of at most sixteen, and the sign in front of them.
-/

namespace Pipeline.Text

/-- The value of a digit. -/
def digit? (c : Char) : Option Nat :=
  if c.isDigit then some (c.toNat - '0'.toNat)
  else if 'a' ≤ c ∧ c ≤ 'f' then some (c.toNat - 'a'.toNat + 10)
  else if 'A' ≤ c ∧ c ≤ 'F' then some (c.toNat - 'A'.toNat + 10)
  else none

/-- Whether a character is a digit to a base. -/
def isDigitOf (base : Nat) (c : Char) : Bool := (digit? c).any (· < base)

/-- The number of some digits to a base. -/
def number (base : Nat) (ds : List Char) : Nat :=
  ds.foldl (fun n c => n * base + (digit? c).getD 0) 0

/-- The number of a text that consists of digits to a base. -/
def number? (base : Nat) (cs : List Char) : Option Nat :=
  if cs.isEmpty ∨ !cs.all (isDigitOf base) then none else some (number base cs)

/-- Whether a minus comes first, and the text after the sign, if there is one. -/
def splitSign : List Char → Bool × List Char
  | '+' :: rest => (false, rest)
  | '-' :: rest => (true, rest)
  | rest => (false, rest)

end Pipeline.Text
