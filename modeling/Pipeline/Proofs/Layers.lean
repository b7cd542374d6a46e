import Pipeline.Proofs.LeafErrors

/-!
# The layers of an error

An error is a cause inside *layers*, one for each leaf, schema or evaluator that it left.
`ExecutionError.layers` lists them, outermost first, and `ExecutionError.inside` puts an
error into some more.
-/

namespace Pipeline

/-- A layer around an error. -/
inductive Layer
  | action (name : String)
  | executable (name : String)
  | schema (name : String) (step : Nat) (component : String)
  | evaluator (name : String)
  deriving DecidableEq, Repr

/-- What put a layer around an error. -/
inductive LayerKind
  | action
  | executable
  | schema
  | evaluator
  deriving DecidableEq, Repr

namespace Layer

def kind : Layer → LayerKind
  | .action _ => .action
  | .executable _ => .executable
  | .schema .. => .schema
  | .evaluator _ => .evaluator

def name : Layer → String
  | .action name => name
  | .executable name => name
  | .schema name .. => name
  | .evaluator name => name

/-- The step that failed, in the layer of a schema. -/
def step? : Layer → Option Nat
  | .schema _ step _ => some step
  | _ => none

/-- The error with the layer around it. -/
def wrap : Layer → ExecutionError → ExecutionError
  | .action name, inner => .action name inner
  | .executable name, inner => .executable name inner
  | .schema name step component, inner => .schemaFailed name step component inner
  | .evaluator name, inner => .evaluator name inner

end Layer

namespace ExecutionError

/-- The layers around the cause, outermost first. -/
def layers : ExecutionError → List Layer
  | .action name inner => .action name :: inner.layers
  | .executable name inner => .executable name :: inner.layers
  | .schemaFailed name step component inner => .schema name step component :: inner.layers
  | .evaluator name inner => .evaluator name :: inner.layers
  | _ => []

/-- The error inside more layers, outermost first. -/
def inside (inner : ExecutionError) (trail : List Layer) : ExecutionError :=
  trail.foldr Layer.wrap inner

variable {error inner : ExecutionError}

/-- A cause is in no layer. -/
theorem layers_of_isCause (h : error.IsCause) : error.layers = [] := by
  cases error with
  | action | executable | schemaFailed | evaluator => cases h
  | missingKey | invalidQuery | invalidInput | validation | memory | other => rfl

@[simp] theorem layers_wrap (layer : Layer) (inner : ExecutionError) :
    (layer.wrap inner).layers = layer :: inner.layers := by
  cases layer <;> rfl

/-- No layer changes the cause. -/
@[simp] theorem rootCause_wrap (layer : Layer) (inner : ExecutionError) :
    (layer.wrap inner).rootCause = inner.rootCause := by
  cases layer <;> rfl

@[simp] theorem inside_nil (inner : ExecutionError) : inner.inside [] = inner := rfl

theorem inside_cons (inner : ExecutionError) (layer : Layer) (trail : List Layer) :
    inner.inside (layer :: trail) = layer.wrap (inner.inside trail) := rfl

theorem inside_append (inner : ExecutionError) (outer trail : List Layer) :
    inner.inside (outer ++ trail) = (inner.inside trail).inside outer :=
  List.foldr_append

/-- The layers of an error inside a trail are the trail, and then its own. -/
@[simp] theorem layers_inside (inner : ExecutionError) (trail : List Layer) :
    (inner.inside trail).layers = trail ++ inner.layers := by
  induction trail with
  | nil => rfl
  | cons layer trail ih => rw [inside_cons, layers_wrap, ih, List.cons_append]

/-- The layers and the cause make up the error. -/
theorem rootCause_inside_layers (error : ExecutionError) :
    error.rootCause.inside error.layers = error := by
  induction error with
  | action name inner ih => exact congrArg (ExecutionError.action name) ih
  | executable name inner ih => exact congrArg (ExecutionError.executable name) ih
  | schemaFailed name step component inner ih =>
    exact congrArg (ExecutionError.schemaFailed name step component) ih
  | evaluator name inner ih => exact congrArg (ExecutionError.evaluator name) ih
  | missingKey | invalidQuery | invalidInput | validation | memory | other => rfl

/-- The context is the names of the layers. -/
theorem contextChain_eq_layers (error : ExecutionError) :
    error.contextChain = error.layers.map Layer.name := by
  induction error with
  | action name inner ih => exact congrArg (name :: ·) ih
  | executable name inner ih => exact congrArg (name :: ·) ih
  | schemaFailed name step component inner ih => exact congrArg (name :: ·) ih
  | evaluator name inner ih => exact congrArg (name :: ·) ih
  | missingKey | invalidQuery | invalidInput | validation | memory | other => rfl

end ExecutionError

end Pipeline
