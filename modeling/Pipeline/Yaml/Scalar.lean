import Pipeline.Number
import Pipeline.Text.Digits

/-!
# Plain words of YAML

What a scalar without quotes stands for: nothing, a truth value, an integer, a
number or, failing all that, its text.  Digits after a leading zero are a text.
-/

namespace Pipeline.Yaml

open Text (number? splitSign)

/-- The words for nothing. -/
def isNull (s : String) : Bool := s = "~" || s = "null" || s = "Null" || s = "NULL"

/-- The truth value that a word stands for. -/
def bool? (s : String) : Option Bool :=
  if s = "true" ∨ s = "True" ∨ s = "TRUE" then some true
  else if s = "false" ∨ s = "False" ∨ s = "FALSE" then some false
  else none

/-! ## Integers -/

/-- Digits that start with a zero and go on. -/
def isZeroPadded (cs : List Char) : Bool :=
  match (splitSign cs).2 with
  | '0' :: rest => !rest.isEmpty && rest.all Char.isDigit
  | _ => false

/-- The natural number of a text without a sign, to the base that it says. -/
def natural? : List Char → Option Nat
  | '0' :: 'x' :: rest => number? 16 rest
  | '0' :: 'o' :: rest => number? 8 rest
  | '0' :: 'b' :: rest => number? 2 rest
  | cs => if isZeroPadded cs then none else number? 10 cs

/-- The integer of a text. -/
def integer? (cs : List Char) : Option Int :=
  let (negative, rest) := splitSign cs
  (natural? rest).map fun n => if negative then -(n : Int) else n

/-- Integers beyond this many binary digits are read as other numbers. -/
def widestInteger : Nat := 128

/-- Whether an integer is short enough to be one. -/
def isShort (n : Int) : Bool :=
  -Nat.pow 2 (widestInteger - 1) ≤ n && n < Nat.pow 2 widestInteger

/-! ## Other numbers -/

/-- A number that may be infinite or none at all. -/
inductive Real
  | finite (x : Binary64)
  | other
  deriving DecidableEq

/-- The exponent of a decimal, after its letter. -/
def power? (cs : List Char) : Option Int :=
  let (down, rest) := splitSign cs
  (number? 10 rest).map fun n => if down then -(n : Int) else n

/-- The finite number of a decimal without a sign.  There is a digit before or after
the point, which may be left out. -/
def decimal? (negative : Bool) (cs : List Char) : Option Binary64 := do
  let whole := cs.takeWhile Char.isDigit
  let rest := cs.dropWhile Char.isDigit
  let (fraction, rest) := match rest with
    | '.' :: rest => (rest.takeWhile Char.isDigit, rest.dropWhile Char.isDigit)
    | _ => ([], rest)
  let digits ← number? 10 (whole ++ fraction)
  let power ← match rest with
    | [] => some 0
    | c :: rest => if c = 'e' ∨ c = 'E' then power? rest else none
  Binary64.ofDecimal negative digits (power - fraction.length)

/-- The words for infinity. -/
def isInfinity (s : String) : Bool := s = ".inf" || s = ".Inf" || s = ".INF"

/-- The words for what is not a number. -/
def isNotANumber (s : String) : Bool := s = ".nan" || s = ".NaN" || s = ".NAN"

/-- The number of a text. -/
def real? (s : String) : Option Real :=
  let (negative, rest) := splitSign s.toList
  if isInfinity (String.ofList rest) ∨ isNotANumber s then some .other
  else (decimal? negative rest).map .finite

end Pipeline.Yaml
