import Pipeline.Component

/-!
# Composition

How some components become one sequence.  Adding keeps each of them as one step,
and appending takes in the steps of those that are sequences.  Following chains
them two by two, from the left or from the right; the chain is flat either way and
has the name of its first component.
-/

namespace Pipeline

/-- A way to compose components. -/
inductive Composition
  /-- Each component is one step. -/
  | add
  /-- The components are the steps. -/
  | fromSteps
  /-- Each component contributes its steps. -/
  | append
  /-- The first is followed by the second, the result by the third, and so on. -/
  | followLeft
  /-- The first is followed by the chain of the others. -/
  | followRight
  deriving DecidableEq, Repr

namespace Composition

/-- All ways. -/
def all : List Composition := [.add, .fromSteps, .append, .followLeft, .followRight]

/-- The name of a way. -/
def name : Composition → String
  | .add => "add"
  | .fromSteps => "from_steps"
  | .append => "append"
  | .followLeft => "then"
  | .followRight => "then_right"

/-- The way with a name. -/
def ofName? (s : String) : Option Composition := all.find? fun c => c.name = s

end Composition

namespace Component

/-- A component followed by others in turn. -/
def chainLeft (first : Component) (rest : List Component) : Component :=
  rest.foldl andThen first

/-- A component followed by the chain of others. -/
def chainRight : Component → List Component → Component
  | first, [] => first
  | first, second :: rest => first.andThen (chainRight second rest)

/-- Some components as one. -/
def compose : Composition → List Component → Component
  | .append, cs => .schema defaultSchemaName (cs.flatMap steps)
  | .followLeft, first :: rest => chainLeft first rest
  | .followRight, first :: rest => chainRight first rest
  | .add, cs | .fromSteps, cs | .followLeft, cs | .followRight, cs => .schema defaultSchemaName cs

end Component

end Pipeline
