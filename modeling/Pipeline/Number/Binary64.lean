/-!
# Binary floating-point numbers

A finite binary64 number is a sign, a mantissa below `2^53` and an exponent:
`± mantissa * 2^exponent`.  In the form used here the mantissa has 53 bits,
unless the exponent is the smallest one, `-1074`.  All arithmetic is exact, on
natural numbers, and one function rounds: `Binary64.ofRatio` takes a quotient to
the nearest number, a tie to the even mantissa.
-/

namespace Pipeline

/-- A finite binary64 number. -/
structure Binary64 where
  /-- Whether the sign is minus.  Zero has both signs. -/
  negative : Bool
  /-- The digits in base two, at most 53 of them. -/
  mantissa : Nat
  /-- The exponent of the last binary digit. -/
  exponent : Int
  deriving DecidableEq, Repr, Inhabited

namespace Binary64

/-- The exponent of the smallest positive number. -/
def minExponent : Int := -1074

/-- The largest exponent of a number with 53 binary digits. -/
def maxExponent : Int := 971

/-- Zero with a sign. -/
def zero (negative : Bool) : Binary64 := ⟨negative, 0, minExponent⟩

/-- The quotient rounded to the nearest natural number, a tie to the even one. -/
def roundDiv (num den : Nat) : Nat :=
  let q := num / den
  let r := num % den
  if 2 * r < den then q
  else if den < 2 * r then q + 1
  else if q % 2 = 0 then q else q + 1

/-- The exponent of the leading binary digit of a positive quotient. -/
def leadingExponent (num den : Nat) : Int :=
  let e : Int := num.log2 - den.log2
  let atLeast :=
    if 0 ≤ e then den * Nat.pow 2 e.toNat ≤ num else den ≤ num * Nat.pow 2 (-e).toNat
  if atLeast then e else e - 1

/-- The number nearest to a quotient, a tie to the even mantissa; none when that
is beyond the largest finite number. -/
def ofRatio (negative : Bool) (num den : Nat) : Option Binary64 :=
  if num = 0 then some (zero negative)
  else
    let q := max (leadingExponent num den - 52) minExponent
    let m :=
      if 0 ≤ q then roundDiv num (den * Nat.pow 2 q.toNat)
      else roundDiv (num * Nat.pow 2 (-q).toNat) den
    let (m, q) := if m = Nat.pow 2 53 then (Nat.pow 2 52, q + 1) else (m, q)
    if maxExponent < q then none else some ⟨negative, m, q⟩

/-- The number as a quotient without its sign: numerator and denominator. -/
def ratio (x : Binary64) : Nat × Nat :=
  if 0 ≤ x.exponent then (x.mantissa * Nat.pow 2 x.exponent.toNat, 1)
  else (x.mantissa, Nat.pow 2 (-x.exponent).toNat)

/-- The number of decimal digits. -/
def digitCount (n : Nat) : Nat := (Nat.toDigits 10 n).length

/-- The number nearest to `digits * 10^scale`; none when that is beyond the
largest finite number.  A scale far out of range is settled by the number of
digits, so that no huge power is computed. -/
def ofDecimal (negative : Bool) (digits : Nat) (scale : Int) : Option Binary64 :=
  if digits = 0 then some (zero negative)
  else
    let top : Int := digitCount digits + scale
    if 400 < top then none
    else if top < -400 then some (zero negative)
    else if 0 ≤ scale then ofRatio negative (digits * Nat.pow 10 scale.toNat) 1
    else ofRatio negative digits (Nat.pow 10 (-scale).toNat)

/-- Equal as numbers: the two zeros are. -/
def numEq (x y : Binary64) : Bool :=
  (x.mantissa == 0 && y.mantissa == 0) || x == y

/-- The product with a power of ten, both factors rounded first. -/
def mulPowerOfTen (x : Binary64) (n : Nat) : Option Binary64 := do
  let p ← ofDecimal false 1 n
  ofRatio x.negative (x.ratio.1 * p.ratio.1) (x.ratio.2 * p.ratio.2)

/-- The quotient by a power of ten, both rounded first. -/
def divPowerOfTen (x : Binary64) (n : Nat) : Option Binary64 := do
  let p ← ofDecimal false 1 n
  ofRatio x.negative (x.ratio.1 * p.ratio.2) (x.ratio.2 * p.ratio.1)

end Binary64

end Pipeline
