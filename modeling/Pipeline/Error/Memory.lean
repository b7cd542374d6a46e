import Pipeline.Files
import Pipeline.Json.Fault

/-!
# Memory errors
-/

namespace Pipeline

/-- Why a memory operation fails. -/
inductive MemoryError
  /-- There is no entry for the key. -/
  | notFound (key : String)
  /-- The key cannot name a file inside the directory. -/
  | invalidKey (key : String)
  /-- The file of the entry could not be read or written. -/
  | file (key : String) (fault : FileFault)
  /-- The file of the entry does not hold a value. -/
  | malformed (key : String) (fault : Json.Fault)
  deriving DecidableEq, Repr

namespace MemoryError

/-- The wording of an error. -/
def message : MemoryError → String
  | .notFound key => "No specified identifier found: " ++ key
  | .invalidKey key =>
    "Invalid memory key '" ++ key ++
      "': keys must be non-empty and free of path separators and '..'"
  | .file key fault => "I/O error for memory key '" ++ key ++ "': " ++ fault.message
  | .malformed key fault =>
    "Serialization error for memory key '" ++ key ++ "': " ++ fault.message

/-- Whether the error says that there is no entry. -/
def isNotFound : MemoryError → Bool
  | .notFound _ => true
  | _ => false

end MemoryError

end Pipeline
