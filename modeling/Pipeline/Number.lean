import Pipeline.Number.Shortest

/-!
# Numbers

A number is an integer or a finite binary64 number, and the two kinds are never
equal.  Integers run from `-2^63` to `2^64 - 1`; what lies outside is read as a
binary number.

`Number.render` writes an integer with its digits and a binary number with the
fewest digits that read back, always with a point or an exponent.
-/

namespace Pipeline

/-- An integer or a binary number. -/
inductive Number
  | int (n : Int)
  | float (x : Binary64)
  deriving DecidableEq, Repr, Inhabited

/-- How the digits of a decimal are laid out. -/
structure DecimalStyle where
  /-- The lowest place of a leading digit that is written without exponent. -/
  lowest : Int
  /-- The highest place of a leading digit that is written without exponent. -/
  highest : Int
  /-- The text before a positive exponent. -/
  positiveExponent : String

/-- Binary numbers have no exponent from `0.00001` up to 16 digits before the
point, and a plus sign before a positive exponent. -/
def DecimalStyle.standard : DecimalStyle := ⟨-5, 15, "e+"⟩

namespace Decimal

/-- A text of zeros. -/
def zeros (n : Nat) : String := String.ofList (List.replicate n '0')

/-- The text of a decimal without zeros at its end. -/
def render (style : DecimalStyle) (d : Decimal) : String :=
  let ds := Nat.toDigits 10 d.digits
  let count := ds.length
  let place : Int := d.scale + count - 1
  let text := String.ofList ds
  if place < style.lowest ∨ style.highest < place then
    let head := String.ofList (ds.take 1)
    let tail := if count = 1 then "" else "." ++ String.ofList (ds.drop 1)
    let mark := if place < 0 then "e-" else style.positiveExponent
    head ++ tail ++ mark ++ toString place.natAbs
  else if 0 ≤ d.scale then text ++ zeros d.scale.toNat ++ ".0"
  else if place < 0 then "0." ++ zeros (-place - 1).toNat ++ text
  else String.ofList (ds.take (place + 1).toNat) ++ "." ++ String.ofList (ds.drop (place + 1).toNat)

end Decimal

/-- The text of a binary number. -/
def Binary64.render (x : Binary64) : String :=
  (if x.negative then "-" else "") ++
    (if x.mantissa = 0 then "0.0" else x.shortest.render DecimalStyle.standard)

namespace Number

/-- The text of a number. -/
def render : Number → String
  | .int n => toString n
  | .float x => x.render

/-- Equal as numbers of one kind: the two zeros are equal, an integer and a binary
number are not. -/
def numEq : Number → Number → Bool
  | .int m, .int n => m == n
  | .float x, .float y => x.numEq y
  | _, _ => false

/-- The smallest integer. -/
def minInt : Int := -Nat.pow 2 63

/-- The largest integer. -/
def maxInt : Int := Nat.pow 2 64 - 1

/-- The largest integer that fits in 64 bits with a sign. -/
def maxSigned : Int := Nat.pow 2 63 - 1

/-- The number as an integer of 64 bits with a sign, if it is one. -/
def asSigned? : Number → Option Int
  | .int n => if n ≤ maxSigned then some n else none
  | .float _ => none

end Number

end Pipeline
