import Pipeline.Component
import Pipeline.Config.Basic
import Pipeline.Decode.Plain
import Pipeline.Error.Config

/-!
# Built-in steps

A step of a configuration names one of eleven built-ins and gives its options.
The options a built-in requires are looked for first, in their declared order;
then all options are decoded.
-/

namespace Pipeline

/-- The built-in steps. -/
inductive BuiltIn
  | flush
  | addData
  | rename
  | renameQuery
  | setValue
  | unpackValue
  | nestToKey
  | setMemory
  | getMemory
  | deleteMemory
  | log
  deriving DecidableEq, Repr

namespace BuiltIn

/-- All built-ins, in the order they are listed. -/
def all : List BuiltIn :=
  [.flush, .addData, .rename, .renameQuery, .setValue, .unpackValue, .nestToKey, .setMemory,
   .getMemory, .deleteMemory, .log]

/-- The name of a built-in in a configuration. -/
def name : BuiltIn → String
  | .flush => "flush"
  | .addData => "add_data"
  | .rename => "rename_attribute"
  | .renameQuery => "rename_attribute_query"
  | .setValue => "set_value"
  | .unpackValue => "unpack_value"
  | .nestToKey => "nest_to_key"
  | .setMemory => "set_memory"
  | .getMemory => "get_memory"
  | .deleteMemory => "delete_memory"
  | .log => "log"

/-- The names that a step may have as its action, as they are listed. -/
def names : List String := all.map name

/-- The built-in that a step with an action is built as. -/
def ofName? : String → Option BuiltIn
  | "flush" => some .flush
  | "add_data" => some .addData
  | "rename_attribute" => some .rename
  | "rename_attribute_query" => some .renameQuery
  | "set_value" => some .setValue
  | "unpack_value" => some .unpackValue
  | "nest_to_key" => some .nestToKey
  | "set_memory" => some .setMemory
  | "get_memory" => some .getMemory
  | "delete_memory" => some .deleteMemory
  | "log" => some .log
  | _ => none

/-- The options a built-in requires, in the order they are looked for. -/
def required : BuiltIn → List String
  | .flush => []
  | .addData => ["data"]
  | .rename => ["old", "new"]
  | .renameQuery => ["query"]
  | .setValue => ["key", "value"]
  | .unpackValue => ["key"]
  | .nestToKey => ["key"]
  | .setMemory => ["key"]
  | .getMemory => ["identifiers"]
  | .deleteMemory => []
  | .log => []

end BuiltIn

/-! ## Options -/

/-- Decode the options of a step. -/
def decodeOptions {S : Type} (name : String) (fields : List (Field Decoded Value S))
    (defaults : S) (options : Record) : Decoded S :=
  Layout.decode Value.format ⟨name, fields, false⟩ defaults (.mapping options)

/-- Decode a list of texts. -/
def decodeTexts : Value → Decoded (List String) :=
  Value.format.listOf Value.format.text

/-- The options of a step that drops keys. -/
def flushOptions : Record → Decoded (Option (List String)) :=
  decodeOptions "FlushOptions"
    [optionalField Value.format "keys" decodeTexts fun _ x => x] none

/-- The options of a step that adds data. -/
def addDataOptions : Record → Decoded Record :=
  decodeOptions "AddDataOptions" [requiredField "data" Value.format.record fun _ x => x] ∅

/-- The options of a step that renames a key. -/
def renameOptions : Record → Decoded Rename :=
  decodeOptions "RenameOptions"
    [requiredField "old" Value.format.text fun c x => { c with old := x },
     requiredField "new" Value.format.text fun c x => { c with new := x }] ⟨"", ""⟩

/-- The options of a step that renames keys by a query. -/
def queryOptions : Record → Decoded String :=
  decodeOptions "QueryOptions" [requiredField "query" Value.format.text fun _ x => x] ""

/-- The options of a step that sets a value. -/
def setValueOptions : Record → Decoded (String × Value) :=
  decodeOptions "SetValueOptions"
    [requiredField "key" Value.format.text fun c x => (x, c.2),
     requiredField "value" Value.format.value fun c x => (c.1, x)] ("", .null)

/-- The options of a step that works on one key. -/
def keyOptions : Record → Decoded String :=
  decodeOptions "KeyOptions" [requiredField "key" Value.format.text fun _ x => x] ""

/-- The options of a step that stores in memory. -/
def setMemoryOptions : Record → Decoded (String × SetInstruction) :=
  decodeOptions "SetMemoryOptions"
    [requiredField "key" Value.format.text fun c x => (x, c.2),
     defaultedField "instruction"
       (Value.format.named (SetInstruction.all.map SetInstruction.name) SetInstruction.ofName?)
       fun c x => (c.1, x)] ("", .set)

/-- The options of a step that reads from memory. -/
structure GetMemoryOptions where
  identifiers : List Identifier
  default : Record
  instruction : GetInstruction

/-- Decode the options of a step that reads from memory. -/
def getMemoryOptions : Record → Decoded GetMemoryOptions :=
  decodeOptions "GetMemoryOptions"
    [requiredField "identifiers" (Value.format.listOf Value.decodeIdentifier)
       fun c x => { c with identifiers := x },
     defaultedField "default" Value.format.record fun c x => { c with default := x },
     defaultedField "instruction"
       (Value.format.named (GetInstruction.all.map GetInstruction.name) GetInstruction.ofName?)
       fun c x => { c with instruction := x }] ⟨[], ∅, .get⟩

/-- The options of a step that deletes from memory. -/
def deleteMemoryOptions : Record → Decoded (Option (List String)) :=
  decodeOptions "DeleteMemoryOptions"
    [optionalField Value.format "identifiers" decodeTexts fun _ x => x] none

/-- The options of a step that logs: the line, and the name of a logger. -/
structure LogOptions where
  spec : LogSpec
  logger : Option String

/-- Decode the options of a step that logs. -/
def logOptions : Record → Decoded LogOptions :=
  decodeOptions "LogOptions"
    [defaultedField "level" (Level.decode Value.format)
       fun c x => { c with spec := { c.spec with level := x } },
     defaultedField "message" Value.format.text
       fun c x => { c with spec := { c.spec with message := x } },
     defaultedField "include_input_data" Value.format.boolean
       fun c x => { c with spec := { c.spec with includeInput := x } },
     optionalField Value.format "logger" Value.format.text fun c x => { c with logger := x }]
    ⟨.make .info, none⟩

/-! ## Building a step -/

namespace StepConfig

/-- The view of a step's leaf: the settings of the configuration, and the action's
own ones where there are none. -/
def view (c : StepConfig) (a : Action) : View :=
  ⟨c.getKey, c.setKey, c.defaultKey.getD a.defaultKey, c.replace.getD a.replace⟩

/-- The component of a step's action. -/
def leaf (c : StepConfig) (a : Action) : Component :=
  .action (c.name.getD a.name) (c.view a) a

/-- The options of a step, decoded. -/
def parseOptions {S : Type} (c : StepConfig) (step : Nat) (decode : Record → Decoded S) :
    Except ConfigError S :=
  (decode c.options).mapError fun fault => .invalidOption step c.action "options" (.decoding fault)

/-- The component of a built-in with the options of a step. -/
def buildAs (c : StepConfig) (step : Nat) : BuiltIn → Except ConfigError Component
  | .flush => do
    let keys ← c.parseOptions step flushOptions
    .ok (c.leaf (.flush keys))
  | .addData => do
    let data ← c.parseOptions step addDataOptions
    .ok (c.leaf (.addData data))
  | .rename => do
    let names ← c.parseOptions step renameOptions
    .ok (c.leaf (.rename names))
  | .renameQuery => do
    let text ← c.parseOptions step queryOptions
    let query ← (RenameQuery.parse text).mapError fun e =>
      .invalidOption step c.action "query" (.refused e)
    .ok (c.leaf (.renameQuery query))
  | .setValue => do
    let (key, value) ← c.parseOptions step setValueOptions
    .ok (c.leaf (.setValue key value))
  | .unpackValue => do
    let key ← c.parseOptions step keyOptions
    .ok (c.leaf (.unpackValue key))
  | .nestToKey => do
    let key ← c.parseOptions step keyOptions
    .ok (c.leaf (.nestToKey key))
  | .setMemory => do
    let (key, instruction) ← c.parseOptions step setMemoryOptions
    .ok (.setMemory (c.name.getD "SetMemory") key c.getKey instruction)
  | .getMemory => do
    let o ← c.parseOptions step getMemoryOptions
    .ok (.getMemory (c.name.getD "GetMemory") o.identifiers o.default o.instruction)
  | .deleteMemory => do
    let keys ← c.parseOptions step deleteMemoryOptions
    .ok (.deleteMemory (c.name.getD "DeleteMemory") (keys.getD []))
  | .log => do
    let o ← c.parseOptions step logOptions
    .ok (.log (c.name.getD "Log") { o.spec with logger := o.logger.map fun n => ⟨n, .trace⟩ })

/-- The component of a step. -/
def build (c : StepConfig) (step : Nat) : Except ConfigError Component :=
  match BuiltIn.ofName? c.action with
  | none => .error (.unknownAction step c.action)
  | some b =>
    match b.required.find? fun option => !c.options.contains option with
    | some option => .error (.missingOption step c.action option)
    | none => c.buildAs step b

end StepConfig

end Pipeline
