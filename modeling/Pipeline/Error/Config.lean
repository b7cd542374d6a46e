import Pipeline.Decode.Fault
import Pipeline.Error.Execution

/-!
# Configuration errors
-/

namespace Pipeline

/-- What is wrong with an option. -/
inductive OptionFault
  /-- The options do not have the form of the step. -/
  | decoding (fault : DecodeFault)
  /-- The option has a value that the step refuses. -/
  | refused (error : ExecutionError)
  deriving DecidableEq, Repr

/-- The wording of a fault. -/
def OptionFault.message : OptionFault → String
  | .decoding fault => fault.message
  | .refused error => error.message

/-- What stands for the complaint of a document reader, which is not spelled out. -/
def unreadable : String := "<detail>"

/-- Why a configuration cannot be loaded or built. -/
inductive ConfigError
  /-- The file could not be read. -/
  | file (path : String) (fault : FileFault)
  /-- The text is not a configuration in YAML. -/
  | yaml
  /-- The text is not a configuration in TOML. -/
  | toml
  /-- The name of the file does not say its format. -/
  | unsupportedFormat (path : String)
  /-- A step names no built-in. -/
  | unknownAction (step : Nat) (action : String)
  /-- A step lacks an option. -/
  | missingOption (step : Nat) (action option : String)
  /-- An option of a step is wrong. -/
  | invalidOption (step : Nat) (action option : String) (fault : OptionFault)
  /-- The memory could not be opened. -/
  | memory (error : MemoryError)
  deriving DecidableEq, Repr

/-- The wording of an error. -/
def ConfigError.message : ConfigError → String
  | .file path fault => "Failed to read config '" ++ path ++ "': " ++ fault.message
  | .yaml => "Invalid YAML config: " ++ unreadable
  | .toml => "Invalid TOML config: " ++ unreadable
  | .unsupportedFormat path =>
    "Unsupported config format for '" ++ path ++ "': expected .yaml, .yml or .toml"
  | .unknownAction step action =>
    "Unknown built-in action '" ++ action ++ "' for step " ++ toString step
  | .missingOption step action option =>
    "Step " ++ toString step ++ " (" ++ action ++ ") is missing required option '" ++ option ++ "'"
  | .invalidOption step action option fault =>
    "Step " ++ toString step ++ " (" ++ action ++ ") has invalid option '" ++ option ++ "': " ++
      fault.message
  | .memory error => "Failed to initialize memory: " ++ error.message

end Pipeline
