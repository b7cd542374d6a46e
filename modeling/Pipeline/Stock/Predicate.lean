import Pipeline.Component
import Pipeline.Stock.Function

/-!
# Stock predicates
-/

namespace Pipeline.Stock

/-- A test that sees the register only. -/
def onRegister (p : Record → Bool) : Predicate := .test fun r _ => pure (p r)

/-- It holds. -/
def always : Predicate := onRegister fun _ => true

/-- It does not hold. -/
def never : Predicate := onRegister fun _ => false

/-- The integer at a key is below a number. -/
def below (key : String) (n : Int) : Predicate := onRegister fun r => intAt r key < n

/-- The integer at a key is above a number. -/
def above (key : String) (n : Int) : Predicate := onRegister fun r => n < intAt r key

/-- The key has a value. -/
def has (key : String) : Predicate := onRegister fun r => r.contains key

/-- The key has the value. -/
def equals (key : String) (value : Value) : Predicate := onRegister fun r =>
  match r.get? key with
  | some v => v.dataEq value
  | none => false

/-- The evaluator's memory has an entry for the key. -/
def inMemory (key : String) : Predicate := .test fun _ e => do
  let w ← Effect.get
  pure ((w.memory e.memory).contains w.files key)

/-- The test fails. -/
def refusing (error : ExecutionError) : Predicate := .test fun _ _ => throw error

end Pipeline.Stock
