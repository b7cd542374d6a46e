import Pipeline.World

/-!
# Evaluators

An evaluator is the context a component runs in: a name, a logger, the policy for
failed steps and the number of a memory.  A construct runs its body in a *child*,
which has a longer name and shares everything else.
-/

namespace Pipeline

/-- The name of an evaluator that was given none. -/
def defaultEvaluatorName : String := "Evaluator"

/-- The context a component runs in. -/
structure Evaluator where
  name : String
  logger : Logger
  /-- Whether a schema stops at its first failed step. -/
  fastExit : Bool
  memory : MemoryId
  deriving DecidableEq, Repr

namespace Evaluator

/-- The evaluator with a name, a threshold, a policy and a memory. -/
def make (name : String) (level : Level) (fastExit : Bool) (memory : MemoryId) : Evaluator :=
  ⟨name, ⟨name, level⟩, fastExit, memory⟩

/-- The evaluator under another name; its logger is renamed too. -/
def rename (e : Evaluator) (name : String) : Evaluator :=
  make name e.logger.threshold e.fastExit e.memory

/-- The evaluator for the body of a construct. -/
def child (e : Evaluator) (construct : String) : Evaluator :=
  e.rename (e.name ++ "." ++ construct)

/-- The events of a line that the evaluator logs under its name. -/
def logLine (e : Evaluator) (level : Level) (text : String) : List Event :=
  e.logger.logAt level (.line (e.name ++ ": " ++ text))

/-- Copy entries of the evaluator's memory into a register. -/
def getMemory (e : Evaluator) (register : Record) (identifiers : List Identifier)
    (default : Record) (delete : Bool) : Act Record :=
  World.onMemory e.memory (Memory.get default delete identifiers register)

/-- Store the value at a key, or the whole register, in the evaluator's memory. -/
def setMemory (e : Evaluator) (register : Record) (getKey : Option String) (key : String) :
    Act Unit := do
  let value ← match getKey with
    | none => pure (.mapping register)
    | some k =>
      match register.get? k with
      | some v => pure v
      | none => throw (.missingKey k)
  World.onMemory e.memory (Memory.set key value)

/-- Take some entries out of the evaluator's memory in order. -/
def deleteMemory (e : Evaluator) (keys : List String) : Act Unit :=
  World.onMemory e.memory (Memory.deleteAll keys)

/-- Take all entries out of the evaluator's memory. -/
def flushMemory (e : Evaluator) : Act Unit := World.onMemory e.memory Memory.flush

end Evaluator

end Pipeline
