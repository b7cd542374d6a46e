import Pipeline.Config.Basic

/-!
# Configurations as values

A configuration is shown as a value with every field; one that is not set is null.
-/

namespace Pipeline

/-- The settings of a memory as a value. -/
def MemoryConfig.toValue (c : MemoryConfig) : Value :=
  showFields [("directory", showText c.directory),
    ("initial_data", (c.initialData.map Value.mapping).getD .null)]

/-- The settings of an evaluator as a value. -/
def EvaluatorConfig.toValue (c : EvaluatorConfig) : Value :=
  showFields [("name", .string c.name), ("log_level", .string c.logLevel.name),
    ("fast_exit", .bool c.fastExit), ("memory", (c.memory.map MemoryConfig.toValue).getD .null)]

/-- A step as a value. -/
def StepConfig.toValue (c : StepConfig) : Value :=
  showFields [("action", .string c.action), ("name", showText c.name),
    ("get_key", showText c.getKey), ("set_key", showText c.setKey),
    ("default_key", showText c.defaultKey), ("replace", showText (c.replace.map Replacing.name)),
    ("options", .mapping c.options)]

/-- A pipeline as a value. -/
def PipelineConfig.toValue (c : PipelineConfig) : Value :=
  showFields [("evaluator", c.evaluator.toValue), ("steps", .list (c.steps.map StepConfig.toValue))]

end Pipeline
