import Pipeline.Memory.Store

/-!
# Memory as a pipeline sees it

A pipeline stores values under memory keys and copies them into registers.  Each
operation reports what it did: storing, using a default, flushing.
-/

namespace Pipeline

/-- A memory key to read, and the register key to write its value to. -/
structure Identifier where
  memoryKey : String
  registerKey : String
  deriving DecidableEq, Repr

/-- The identifier that keeps the key. -/
def Identifier.same (key : String) : Identifier := ⟨key, key⟩

namespace Memory

/-- Store a value. -/
def set (key : String) (value : Value) : Store.Action Unit := do
  Store.add key value
  let (s, _) ← Effect.get
  Effect.emit (Message.memoryStored key s.persistent).broadcast

/-- The value of a key, or its default where there is no entry. -/
def lookup (key : String) (default : Record) : Store.Action Value :=
  tryCatch (Store.retrieve key) fun e =>
    match e.isNotFound, default.get? key with
    | true, some value => do
      Effect.emit (Message.memoryDefaultUsed key).broadcast
      pure value
    | _, _ => throw e

/-- Copy entries into a register, one identifier after another.  With `delete`,
each entry is taken out once it is read.  Defaults go to the register only. -/
def get (default : Record) (delete : Bool) : List Identifier → Record → Store.Action Record
  | [], register => pure register
  | identifier :: rest, register => do
    let value ← lookup identifier.memoryKey default
    let register := register.insert identifier.registerKey value
    if delete then Store.delete identifier.memoryKey
    get default delete rest register

/-- Take an entry out. -/
def delete (key : String) : Store.Action Unit := Store.delete key

/-- Take some entries out in order. -/
def deleteAll : List String → Store.Action Unit
  | [] => pure ()
  | key :: rest => do
    delete key
    deleteAll rest

/-- Take all entries out. -/
def flush : Store.Action Unit := do
  let (s, _) ← Effect.get
  Store.flush
  Effect.emit (Message.memoryFlushed s.size).broadcast

/-- What is read under those keys that have an entry. -/
def peek : List String → Store.Action (List (String × Except MemoryError Value))
  | [] => pure []
  | key :: rest => do
    let (s, fs) ← Effect.get
    if s.contains fs key then
      let x ← tryCatch (Except.ok <$> Store.retrieve key) fun e => pure (.error e)
      let entries ← peek rest
      pure ((key, x) :: entries)
    else peek rest

/-- How a memory is shown in a message. -/
def debug (s : Store) : String :=
  "MemoryManager \x7b entries: " ++ toString s.size ++ ", persistent: " ++ toString s.persistent ++
    " \x7d"

end Memory

end Pipeline
