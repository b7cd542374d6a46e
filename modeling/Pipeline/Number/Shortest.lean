import Pipeline.Number.Binary64

/-!
# Shortest decimals

`Binary64.shortest` gives the decimal with the fewest digits that reads back as a
number, and of those the nearest to it.  A decimal reads back when it lies in the
interval of reals that round to the number; the ends belong to it when the
mantissa is even.

For 1, 2, … 17 digits the two neighbours of the number on that decimal grid are
tested in exact arithmetic.  The first grid with a hit wins, since if a point of
a grid lies in the interval, so does one of the two neighbours.
-/

namespace Pipeline

/-- The decimal `digits * 10^scale`. -/
structure Decimal where
  /-- Its digits, as a number. -/
  digits : Nat
  /-- The exponent of the last digit. -/
  scale : Int
  deriving DecidableEq, Repr, Inhabited

namespace Decimal

/-- The decimal without zeros at its end. -/
def trim (d : Decimal) : Nat → Decimal
  | 0 => d
  | n + 1 => if d.digits ≠ 0 ∧ d.digits % 10 = 0 then trim ⟨d.digits / 10, d.scale + 1⟩ n else d

end Decimal

namespace Binary64

/-- The reals that round to a positive number, in quarters of its last binary
digit: from the middle to the number below up to the middle to the one above.
Below a power of two the numbers are twice as close. -/
def interval (x : Binary64) : Nat × Nat :=
  let low := if x.mantissa = Nat.pow 2 52 ∧ minExponent < x.exponent then 1 else 2
  (4 * x.mantissa - low, 4 * x.mantissa + 2)

/-- `quarters * 2^(exponent - 2)` over `10^scale`, as a quotient. -/
def overPower (quarters : Nat) (exponent scale : Int) : Nat × Nat :=
  let e := exponent - 2
  let num := quarters * Nat.pow 2 e.toNat * Nat.pow 10 (-scale).toNat
  let den := Nat.pow 2 (-e).toNat * Nat.pow 10 scale.toNat
  (num, den)

/-- Whether `digits * 10^scale` reads back as the number. -/
def readsBack (x : Binary64) (d : Decimal) : Bool :=
  let (low, high) := x.interval
  let (lowNum, lowDen) := overPower low x.exponent d.scale
  let (highNum, highDen) := overPower high x.exponent d.scale
  if x.mantissa % 2 = 0 then lowNum ≤ d.digits * lowDen ∧ d.digits * highDen ≤ highNum
  else lowNum < d.digits * lowDen ∧ d.digits * highDen < highNum

/-- The decimal on the grid of a scale that reads back and is nearest. -/
def onGrid? (x : Binary64) (scale : Int) : Option Decimal :=
  let (num, den) := overPower (4 * x.mantissa) x.exponent scale
  let below : Decimal := ⟨num / den, scale⟩
  let above : Decimal := ⟨num / den + 1, scale⟩
  let rest := num % den
  match x.readsBack below, x.readsBack above with
  | true, true =>
    if 2 * rest < den ∨ 2 * rest = den ∧ below.digits % 2 = 0 then some below else some above
  | true, false => some below
  | false, true => some above
  | false, false => none

/-- The exponent of the leading decimal digit of a positive number. -/
def leadingPlace (x : Binary64) : Int :=
  let (num, den) := x.ratio
  (digitCount (num * Nat.pow 10 330 / den) : Int) - 331

/-- Try grids of finer and finer scale. -/
def searchGrids (x : Binary64) (scale : Int) : Nat → Decimal
  | 0 => (x.onGrid? scale).getD ⟨0, 0⟩
  | n + 1 => (x.onGrid? scale).getD (searchGrids x (scale - 1) n)

/-- The shortest decimal that reads back, and of those the nearest; the sign apart. -/
def shortest (x : Binary64) : Decimal :=
  if x.mantissa = 0 then ⟨0, 0⟩ else (searchGrids x x.leadingPlace 17).trim 20

end Binary64

end Pipeline
