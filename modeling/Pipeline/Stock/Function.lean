import Pipeline.Action

/-!
# Stock functions

Ready-made functions for actions.  Some work on any value, and some on the records
of mappings.  Arithmetic is on integers of 64 bits with a sign; a key without such
an integer counts as zero.
-/

namespace Pipeline.Stock

/-- An integer of 64 bits with a sign, or what to say when it is not one. -/
def signed (n : Int) (otherwise : ExecutionError) : Except ExecutionError Int :=
  if Number.minInt ≤ n ∧ n ≤ Number.maxSigned then .ok n else .error otherwise

/-- The integer at a key, or zero. -/
def intAt (r : Record) (key : String) : Int := ((r.get? key).bind Value.asSigned?).getD 0

/-! ## Functions on values -/

/-- The input as it is. -/
def identity : Action := .ofFunction fun v => .ok v

/-- A fixed value. -/
def constant (value : Value) : Action := .ofFunction fun _ => .ok value

/-- The input twice, in a list. -/
def pair : Action := .ofFunction fun v => .ok (.list [v, v])

/-- Twice an integer. -/
def double : Action := .ofFunction fun v =>
  let fault := .invalidInput (.other "expected a number")
  match v.asSigned? with
  | some n => (signed (2 * n) fault).map Value.int
  | none => .error fault

/-- The number of keys of a mapping. -/
def count : Action := .ofFunction fun v => do
  let r ← v.expectRecord
  .ok (.int r.size)

/-! ## Functions on records -/

/-- Add to the integer at a key.  The result holds the other keys too if they are
kept. -/
def add (key : String) (n : Int) (keep : Bool) : Action := .ofRecordFunction fun r => do
  let sum ← signed (intAt r key + n) (.other "overflow")
  .ok ((if keep then r else (∅ : Record)).insert key (.int sum))

/-- The remainder of the integer at a key, with the sign of the dividend. -/
def remainder (key : String) (n : Int) : Action := .ofRecordFunction fun r =>
  let a := intAt r key
  if n = 0 ∨ a = Number.minInt ∧ n = -1 then .error (.other "division by zero")
  else .ok ((∅ : Record).insert key (.int (a.tmod n)))

/-- Append a value to the list at a key, which is made if there is none. -/
def append (key : String) (label : Value) : Action := .ofRecordFunction fun r =>
  let xs := match r.get? key with
    | some (.list xs) => xs
    | _ => []
  .ok (r.insert key (.list (xs ++ [label])))

/-- Fail. -/
def failing (error : ExecutionError) : Action := .ofRecordFunction fun _ => .error error

end Pipeline.Stock
