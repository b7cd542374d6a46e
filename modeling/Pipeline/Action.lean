import Pipeline.Action.RenameQuery
import Pipeline.View

/-!
# Actions

An action turns a value into an output.  It has a name, the key for an output that
is not a mapping, and a way to meet the register.  The built-in ones below work on
mappings, except that nesting takes any value and flushing everything none.
-/

namespace Pipeline

/-- A transformation of one value, without memory between its uses. -/
structure Action where
  name : String
  defaultKey : String
  replace : Replacing
  execute : Value → Except ExecutionError Output

namespace Action

/-- Drop keys one after another; a key that is not there is an error. -/
def dropKeys : List String → Record → Except ExecutionError Record
  | [], r => .ok r
  | key :: rest, r =>
    if r.contains key then dropKeys rest (r.erase key) else .error (.missingKey key)

/-- Drop the given keys, or everything. -/
def flush (keys : Option (List String)) : Action where
  name := "Flush"
  defaultKey := defaultOutputKey
  replace := .local
  execute input :=
    match keys with
    | none => .ok (.mapping ∅)
    | some keys => do
      let r ← input.expectRecord
      .ok (.mapping (← dropKeys keys r))

/-- Merge fixed entries into the input. -/
def addData (data : Record) : Action where
  name := "AddData"
  defaultKey := defaultOutputKey
  replace := .inplace
  execute input := do
    let r ← input.expectRecord
    .ok (.mapping (r.merge data))

/-- Move the value of one key to another. -/
def applyRename (r : Record) (rename : Rename) : Except ExecutionError Record :=
  match r.get? rename.old with
  | some v => .ok ((r.erase rename.old).insert rename.new v)
  | none => .error (.missingKey rename.old)

/-- Move the value of one key to another. -/
def rename (names : Rename) : Action where
  name := "RenameAttribute"
  defaultKey := defaultOutputKey
  replace := .local
  execute input := do
    let r ← input.expectRecord
    .ok (.mapping (← applyRename r names))

/-- Apply renames from left to right. -/
def applyRenames : List Rename → Record → Except ExecutionError Record
  | [], r => .ok r
  | rename :: rest, r => do applyRenames rest (← applyRename r rename)

/-- Apply the renames of a query. -/
def renameQuery (query : RenameQuery) : Action where
  name := "RenameAttributeQuery"
  defaultKey := defaultOutputKey
  replace := .local
  execute input := do
    let r ← input.expectRecord
    .ok (.mapping (← applyRenames query.renames r))

/-- Set one key to a fixed value. -/
def setValue (key : String) (value : Value) : Action where
  name := "SetValue"
  defaultKey := defaultOutputKey
  replace := .inplace
  execute input := do
    let r ← input.expectRecord
    .ok (.mapping (r.insert key value))

/-- Drop a key and merge its mapping into the input. -/
def unpackValue (key : String) : Action where
  name := "UnpackValue"
  defaultKey := defaultOutputKey
  replace := .local
  execute input := do
    let r ← input.expectRecord
    match r.get? key with
    | none => .error (.missingKey key)
    | some (.mapping inner) => .ok (.mapping (Ascending.merge (r.erase key) inner))
    | some v => .error (.invalidInput (.notUnpackable v.kind))

/-- Put the whole input under a key. -/
def nestToKey (key : String) : Action where
  name := "NestToKey"
  defaultKey := defaultOutputKey
  replace := .local
  execute input := .ok (.mapping ((∅ : Record).insert key input))

/-- An action made of a function on values. -/
def ofFunction (f : Value → Except ExecutionError Value) : Action where
  name := "ExecuteFunction"
  defaultKey := defaultOutputKey
  replace := .inplace
  execute input := (f input).map Output.ofValue

/-- An action made of a function on mappings. -/
def ofRecordFunction (f : Record → Except ExecutionError Record) : Action where
  name := "ExecuteFunction"
  defaultKey := defaultOutputKey
  replace := .inplace
  execute input := do
    let r ← input.expectRecord
    .ok (.mapping (← f r))

end Action

end Pipeline
