import Pipeline.Config.BuiltIn
import Pipeline.Interpreter

/-!
# Building pipelines

A pipeline is built from a configuration: its steps in order, up to the first that
cannot be built, and then its memory.
-/

namespace Pipeline

/-- An evaluator with the component it runs. -/
structure Engine where
  evaluator : Evaluator
  body : Component

/-- Open a memory. -/
def MemoryConfig.create (c : MemoryConfig) : Effect Files MemoryError Store :=
  Store.create c.directory (c.initialData.getD ∅)

/-- Make an evaluator with a memory of its own. -/
def EvaluatorConfig.create (c : EvaluatorConfig) : Effect World MemoryError Evaluator := do
  let store ← World.onFiles (c.memory.getD .default).create
  let w ← Effect.get
  let id := w.memories.fresh
  Effect.set { w with memories := w.memories.set id store }
  pure (.make c.name c.logLevel c.fastExit id)

namespace PipelineConfig

/-- Build steps from an index on. -/
def buildSteps : (index : Nat) → List StepConfig → Except ConfigError (List Component)
  | _, [] => .ok []
  | index, c :: rest => do
    let step ← c.build index
    let steps ← buildSteps (index + 1) rest
    .ok (step :: steps)

/-- Build a pipeline. -/
def build (c : PipelineConfig) : Effect World ConfigError Engine := do
  let steps ← Effect.ofExcept (buildSteps 0 c.steps)
  let evaluator ← c.evaluator.create.mapError .memory
  pure ⟨evaluator, .schema Component.defaultSchemaName steps⟩

end PipelineConfig

end Pipeline
