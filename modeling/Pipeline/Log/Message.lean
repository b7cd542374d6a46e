import Pipeline.Error.Execution
import Pipeline.Log.Level

/-!
# Messages and events

A *message* says what happened; its level and its wording follow from it.  An
*event* is a message that reached a logger.  A user's own line has the level of
its event.
-/

namespace Pipeline

/-- What happened. -/
inductive Message
  /-- A step of a schema is done. -/
  | stepCompleted (schema : String) (step : Nat) (component : String)
  /-- A step of a schema failed. -/
  | stepFailed (schema : String) (step : Nat) (component : String) (error : ExecutionError)
  /-- The schema goes on after a failed step. -/
  | stepSkipped (schema : String) (step : Nat)
  /-- An error left the component of an evaluator. -/
  | evaluationFailed (evaluator : String) (error : ExecutionError)
  /-- The signal that ends a loop left the outermost evaluator. -/
  | exitOutsideLoop (evaluator : String)
  /-- An action is done. -/
  | actionExecuted (action : String)
  /-- An executable is done with a number of mappings. -/
  | executableExecuted (executable : String) (items : Nat)
  /-- A loop was made without condition and bound. -/
  | unboundedLoop (name : String)
  /-- A loop ended. -/
  | loopFinished (name : String) (iterations : Nat) (exited : Bool)
  /-- A branch of a switch ran. -/
  | branchTaken (switch branch : String) (index : Nat)
  /-- A value was stored in memory. -/
  | memoryStored (key : String) (persisted : Bool)
  /-- A value was read from its file. -/
  | memoryLoaded (key path : String)
  /-- A default stands in for a missing entry. -/
  | memoryDefaultUsed (key : String)
  /-- All entries were removed. -/
  | memoryFlushed (entries : Nat)
  /-- A line in words of its own. -/
  | line (text : String)
  deriving DecidableEq, Repr

namespace Message

/-- The severity of a message. -/
def level : Message → Level
  | .stepCompleted .. | .line .. => .info
  | .stepFailed .. | .evaluationFailed .. => .error
  | .stepSkipped .. | .exitOutsideLoop .. | .unboundedLoop .. => .warn
  | .actionExecuted .. | .executableExecuted .. | .loopFinished .. | .branchTaken ..
  | .memoryStored .. | .memoryLoaded .. | .memoryDefaultUsed .. | .memoryFlushed .. => .debug

/-- The wording of a message. -/
def text : Message → String
  | .stepCompleted schema step component =>
    schema ++ ": Step " ++ toString step ++ "(" ++ component ++ ") executed successfully."
  | .stepFailed schema step component error =>
    schema ++ ": Error at step " ++ toString step ++ "(" ++ component ++ "): " ++ error.message
  | .stepSkipped schema step =>
    schema ++ ": Continuing after step " ++ toString step ++ " with the previous register"
  | .evaluationFailed evaluator error =>
    "Evaluator '" ++ evaluator ++ "' failed: " ++ error.message
  | .exitOutsideLoop evaluator =>
    "Evaluator '" ++ evaluator ++ "': exit loop signal raised outside a loop; run ends here"
  | .actionExecuted action => "Action: " ++ action ++ ": Executed"
  | .executableExecuted executable items =>
    "Executable: " ++ executable ++ ": Executed over " ++ toString items ++ " item(s)"
  | .unboundedLoop name => "While: " ++ name ++ ": Loop is not bounded!"
  | .loopFinished name iterations exited =>
    "While: " ++ name ++ ": finished after " ++ toString iterations ++ " iteration(s) (" ++
      (if exited then "exit signal" else "bound reached") ++ ")"
  | .branchTaken switch branch index =>
    "Switch: " ++ switch ++ ": branch " ++ toString index ++ "(" ++ branch ++ ") executed"
  | .memoryStored key persisted =>
    "Memory: stored '" ++ key ++ "'" ++ (if persisted then " (persisted)" else "")
  | .memoryLoaded key path => "Memory: loaded '" ++ key ++ "' from " ++ path
  | .memoryDefaultUsed key => "Memory: '" ++ key ++ "' not found, using default"
  | .memoryFlushed entries => "Memory: flushed " ++ toString entries ++ " entries"
  | .line text => text

end Message

/-- A message that reached a logger. -/
structure Event where
  level : Level
  logger : String
  message : Message
  deriving DecidableEq, Repr

namespace Logger

/-- The event of a message at a level, if the logger lets it pass. -/
def logAt (l : Logger) (level : Level) (m : Message) : List Event :=
  if l.enabled level then [⟨level, l.name, m⟩] else []

/-- The event of a message, if the logger lets it pass. -/
def log (l : Logger) (m : Message) : List Event := l.logAt m.level m

end Logger

/-- The event of a message outside any evaluator. -/
def Message.broadcast (m : Message) : List Event := [⟨m.level, engineLogger, m⟩]

end Pipeline
