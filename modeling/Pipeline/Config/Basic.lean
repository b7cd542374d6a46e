import Pipeline.Decode.Format
import Pipeline.Log.Level
import Pipeline.View

/-!
# Pipeline configurations

A configuration describes a linear pipeline: the settings of its evaluator, and
its steps, each a built-in action with options.  It is decoded alike from every
document format.
-/

namespace Pipeline

/-- Where the memory of a pipeline is kept, and what it starts with. -/
structure MemoryConfig where
  /-- The directory of a memory in files; a memory in process has none. -/
  directory : Option String
  initialData : Option Record

/-- The settings of an evaluator. -/
structure EvaluatorConfig where
  name : String
  logLevel : Level
  fastExit : Bool
  memory : Option MemoryConfig

/-- One built-in step. -/
structure StepConfig where
  /-- The name of the built-in. -/
  action : String
  /-- The display name, if it is not the built-in's own. -/
  name : Option String
  getKey : Option String
  setKey : Option String
  defaultKey : Option String
  replace : Option Replacing
  options : Record

/-- A linear pipeline. -/
structure PipelineConfig where
  evaluator : EvaluatorConfig
  steps : List StepConfig

/-- A memory in process with nothing in it. -/
def MemoryConfig.default : MemoryConfig := ⟨none, none⟩

/-- The settings of an evaluator that was given none. -/
def EvaluatorConfig.default : EvaluatorConfig := ⟨"Evaluator", .trace, true, none⟩

/-- A step before its fields are read. -/
def StepConfig.blank : StepConfig := ⟨"", none, none, none, none, none, ∅⟩

/-- A pipeline without steps. -/
def PipelineConfig.default : PipelineConfig := ⟨.default, []⟩

section

variable {m : Type → Type} [Monad m] {ν : Type}

/-- A field that may be left out or stand for nothing. -/
def optionalField {S α : Type} (format : Format m ν) (name : String) (read : ν → m α)
    (set : S → Option α → S) : Field m ν S :=
  ⟨name, .optional, fun s node => do pure (set s (← format.optionally read node))⟩

/-- A field that may be left out. -/
def defaultedField {S α : Type} (name : String) (read : ν → m α) (set : S → α → S) :
    Field m ν S :=
  ⟨name, .defaulted, fun s node => do pure (set s (← read node))⟩

/-- A field that must be there. -/
def requiredField {S α : Type} (name : String) (read : ν → m α) (set : S → α → S) :
    Field m ν S :=
  ⟨name, .required, fun s node => do pure (set s (← read node))⟩

/-- Decode the settings of a memory. -/
def MemoryConfig.decode (format : Format m ν) : ν → m MemoryConfig :=
  Layout.decode format
    ⟨"MemoryConfig",
      [optionalField format "directory" format.path fun c x => { c with directory := x },
       optionalField format "initial_data" format.record fun c x => { c with initialData := x }],
      false⟩
    .default

/-- Decode a log level. -/
def Level.decode (format : Format m ν) : ν → m Level :=
  format.named (Level.all.map Level.name) Level.ofName?

/-- Decode a way to meet the register. -/
def Replacing.decode (format : Format m ν) : ν → m Replacing :=
  format.named (Replacing.all.map Replacing.name) Replacing.ofName?

/-- Decode the settings of an evaluator. -/
def EvaluatorConfig.decode (format : Format m ν) : ν → m EvaluatorConfig :=
  Layout.decode format
    ⟨"EvaluatorConfig",
      [defaultedField "name" format.text fun c x => { c with name := x },
       defaultedField "log_level" (Level.decode format) fun c x => { c with logLevel := x },
       defaultedField "fast_exit" format.boolean fun c x => { c with fastExit := x },
       defaultedField "memory" (format.optionally (MemoryConfig.decode format))
         fun c x => { c with memory := x }],
      false⟩
    .default

/-- Decode a step. -/
def StepConfig.decode (format : Format m ν) : ν → m StepConfig :=
  Layout.decode format
    ⟨"StepConfig",
      [requiredField "action" format.text fun c x => { c with action := x },
       optionalField format "name" format.text fun c x => { c with name := x },
       optionalField format "get_key" format.text fun c x => { c with getKey := x },
       optionalField format "set_key" format.text fun c x => { c with setKey := x },
       optionalField format "default_key" format.text fun c x => { c with defaultKey := x },
       optionalField format "replace" (Replacing.decode format) fun c x => { c with replace := x },
       defaultedField "options" format.record fun c x => { c with options := x }],
      false⟩
    .blank

/-- Decode a pipeline. -/
def PipelineConfig.decode (format : Format m ν) : ν → m PipelineConfig :=
  Layout.decode format
    ⟨"PipelineConfig",
      [defaultedField "evaluator" (EvaluatorConfig.decode format)
         fun c x => { c with evaluator := x },
       defaultedField "steps" (format.listOf (StepConfig.decode format))
         fun c x => { c with steps := x }],
      false⟩
    .default

end

end Pipeline
