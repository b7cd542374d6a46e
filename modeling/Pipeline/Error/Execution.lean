import Pipeline.Error.Memory
import Pipeline.Value

/-!
# Execution errors

An execution error is a cause inside *layers*.  Every construct that a failure
passes adds one layer with its own name: a leaf, a schema, an evaluator.  The
message of an error is the prefixes of its layers, outermost first, followed by
the wording of the cause.
-/

namespace Pipeline

/-- What is wrong with the data given to a unit of work. -/
inductive InputFault
  /-- A mapping was expected. -/
  | notMapping (found : Kind)
  /-- The value to unpack is not a mapping. -/
  | notUnpackable (found : Kind)
  /-- The value at the key is not a list. -/
  | notList (key : String) (found : Kind)
  /-- Neither a mapping nor a list can be processed. -/
  | notProcessable (found : Kind)
  /-- A fault in words of its own. -/
  | other (message : String)
  deriving DecidableEq, Repr

/-- The wording of a fault. -/
def InputFault.message : InputFault → String
  | .notMapping found => "Expected a mapping, received: " ++ found.word
  | .notUnpackable found => "Expected: mapping. Received value of type: " ++ found.word
  | .notList key found => "Expected a list at '" ++ key ++ "', received: " ++ found.word
  | .notProcessable found => "Unexpected data type for processing: " ++ found.word
  | .other message => message

/-- Why a component fails. -/
inductive ExecutionError
  /-- An action failed. -/
  | action (name : String) (inner : ExecutionError)
  /-- An executable failed, or its input or output does not match its schema. -/
  | executable (name : String) (inner : ExecutionError)
  /-- A step of a schema failed. -/
  | schemaFailed (name : String) (step : Nat) (component : String) (inner : ExecutionError)
  /-- An error left the component inside an evaluator. -/
  | evaluator (name : String) (inner : ExecutionError)
  /-- The key is not in the data. -/
  | missingKey (key : String)
  /-- A part of a rename query is not a transformation. -/
  | invalidQuery (part : String)
  /-- The data has an unexpected form. -/
  | invalidInput (fault : InputFault)
  /-- The data does not match a declared schema. -/
  | validation (schema reason : String)
  /-- A memory operation failed. -/
  | memory (error : MemoryError)
  /-- A failure of a user's function, in words of its own. -/
  | other (message : String)
  deriving DecidableEq, Repr

namespace ExecutionError

/-- The wording of an error. -/
def message : ExecutionError → String
  | .action name inner => "Action error: " ++ name ++ ": " ++ inner.message
  | .executable name inner => "Executable error: " ++ name ++ ": " ++ inner.message
  | .schemaFailed name step component inner =>
    name ++ ": Execution schema failed at step " ++ toString step ++ " (" ++ component ++ "): " ++
      inner.message
  | .evaluator name inner => name ++ ": " ++ inner.message
  | .missingKey key => "Attribute '" ++ key ++ "' not found in input data"
  | .invalidQuery part => "Invalid transformation format: '" ++ part ++ "'"
  | .invalidInput fault => "Invalid input data: " ++ fault.message
  | .validation schema reason => "Validation error: expected schema " ++ schema ++ ": " ++ reason
  | .memory error => error.message
  | .other message => message

/-- The cause inside all layers. -/
def rootCause : ExecutionError → ExecutionError
  | .action _ inner => inner.rootCause
  | .executable _ inner => inner.rootCause
  | .schemaFailed _ _ _ inner => inner.rootCause
  | .evaluator _ inner => inner.rootCause
  | cause => cause

/-- The names of the layers, outermost first. -/
def contextChain : ExecutionError → List String
  | .action name inner => name :: inner.contextChain
  | .executable name inner => name :: inner.contextChain
  | .schemaFailed name _ _ inner => name :: inner.contextChain
  | .evaluator name inner => name :: inner.contextChain
  | _ => []

end ExecutionError

end Pipeline
