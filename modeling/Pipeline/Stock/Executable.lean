import Pipeline.Config.Basic
import Pipeline.Decode.Plain
import Pipeline.Executable
import Pipeline.Stock.Function
import Pipeline.Text.Complaint

/-!
# Stock executables

Ready-made executables with their schemas.  A schema reads a mapping as a
structure and gives the mapping of its fields.
-/

namespace Pipeline.Stock

/-! ## Schemas -/

/-- The mapping of some entries. -/
def record (entries : List (String × Value)) : Record := Ascending.ofList entries

/-- Store a decoded field under its name. -/
def store {α : Type} (name : String) (toValue : α → Value) (r : Record) (a : α) : Record :=
  r.insert name (toValue a)

/-- The schema of a structure whose fields are stored as they are read. -/
def structureSchema (name : String) (fields : List (Field Decoded Value Record))
    (defaults : Record) (strict : Bool) : DataSchema :=
  ⟨name, fun r =>
    (Layout.decode Value.format ⟨name, fields, strict⟩ defaults (.mapping r)).mapError
      DecodeFault.message⟩

/-- The schema that every mapping matches. -/
def anyMapping : DataSchema := ⟨"Map", .ok⟩

/-- The modes of a profile. -/
def modes : List String := ["fast", "very_slow"]

/-- A counter. -/
def counter : DataSchema :=
  structureSchema "Counter" [requiredField "f" Value.decodeSigned (store "f" Value.int)] ∅ false

/-- Whom to greet. -/
def greetInput : DataSchema :=
  structureSchema "GreetInput" [requiredField "name" Value.format.text (store "name" .string)]
    ∅ false

/-- A greeting. -/
def greetOutput : DataSchema :=
  structureSchema "GreetOutput"
    [requiredField "greeting" Value.format.text (store "greeting" .string)] ∅ false

/-- What to profile. -/
def profileInput : DataSchema :=
  structureSchema "ProfileInput"
    [requiredField "id" Value.decodeByte (store "id" Value.int),
     requiredField "tags" (Value.format.listOf Value.format.text)
       (store "tags" fun tags => .list (tags.map .string)),
     optionalField Value.format "ratio" Value.decodeNumber
       (store "ratio" fun ratio => (ratio.map Value.number).getD .null),
     requiredField "mode" (Value.decodeChoice modes) (store "mode" .string),
     defaultedField "active" Value.format.boolean (store "active" .bool)]
    (record [("ratio", .null), ("active", .bool false)]) true

/-- A profile. -/
def profileOutput : DataSchema :=
  structureSchema "ProfileOutput"
    [requiredField "id" Value.decodeByte (store "id" Value.int),
     requiredField "summary" Value.format.text (store "summary" .string),
     requiredField "mode" (Value.decodeChoice modes) (store "mode" .string),
     optionalField Value.format "note" Value.format.text
       (store "note" fun note => (note.map Value.string).getD .null)]
    (record [("note", .null)]) false

/-- A mapping that says how it is written: it fails with the complaint under `fail`,
it is the value under `as`, or else it is itself. -/
def loose : DataSchema :=
  ⟨"Loose", fun r =>
    match r.get? "fail" with
    | some (.string reason) => .error (Text.Complaint.ofText reason).text
    | some _ => .error "fail"
    | none =>
      match r.get? "as" with
      | some (.mapping inner) => .ok inner
      | some v => .error ("expected a mapping, serialized to " ++ v.kind.word)
      | none => .ok r⟩

/-! ## Units -/

/-- The text at a key. -/
def textAt (r : Record) (key : String) : String :=
  match r.get? key with
  | some (.string s) => s
  | _ => ""

/-- Adds one to a counter. -/
def increment : Executable where
  name := "Increment"
  replace := .inplace
  input := counter
  output := counter
  invoke r _ := do
    let n ← Effect.ofExcept (signed (intAt r "f" + 1) (.other "overflow"))
    pure (record [("f", .int n)])

/-- Greets by name. -/
def greet : Executable where
  name := "Greet"
  replace := .inplace
  input := greetInput
  output := greetOutput
  invoke r _ := pure (record [("greeting", .string ("hello " ++ textAt r "name"))])

/-- Greets by name and says more than its schema, replacing the register. -/
def greetExtra : Executable where
  name := "Greet"
  replace := .local
  input := greetInput
  output := greetOutput
  invoke r _ :=
    pure (record [("greeting", .string ("hello " ++ textAt r "name")), ("extra", .int 1)])

/-- Gives an output that does not match its schema. -/
def mislabel : Executable where
  name := "Mislabel"
  replace := .inplace
  input := greetInput
  output := greetOutput
  invoke _ _ := pure (record [("wrong", .int 1)])

/-- The summary of a profile. -/
def summary (r : Record) : String :=
  let tags := match r.get? "tags" with
    | some (.list xs) => xs.map fun v => match v with
      | .string s => s
      | _ => ""
    | _ => []
  let ratioSet := decide ((r.get? "ratio").getD .null ≠ .null)
  let active := decide (r.get? "active" = some (.bool true))
  ",".intercalate tags ++ "|" ++ toString ratioSet ++ "|" ++ toString active

/-- Sums up a profile. -/
def profile : Executable where
  name := "ProfileTask"
  replace := .inplace
  input := profileInput
  output := profileOutput
  invoke r _ :=
    pure (record [("id", (r.get? "id").getD .null), ("mode", (r.get? "mode").getD .null),
      ("summary", .string (summary r))])

/-- Gives its input. -/
def opaqueUnit : Executable where
  name := "Opaque"
  replace := .inplace
  input := anyMapping
  output := loose
  invoke r _ := pure r

/-- The integer after another one; the smallest one comes after the largest. -/
def successor (n : Int) : Int := if n = Number.maxSigned then Number.minInt else n + 1

/-- Counts its uses in memory, and tells what it sees of its evaluator. -/
def tally : Executable where
  name := "Tally"
  replace := .inplace
  input := anyMapping
  output := anyMapping
  invoke _ e := do
    let calls ← tryCatch (World.onMemory e.memory (Store.retrieve "calls"))
      fun _ => pure (.int 0)
    let n := successor (calls.asSigned?.getD 0)
    e.setMemory (record [("count", .int n)]) (some "count") "calls"
    pure (record [("count", .int n), ("evaluator", .string e.name), ("fast_exit", .bool e.fastExit)])

/-- Fails. -/
def broken (error : ExecutionError) : Executable where
  name := "Broken"
  replace := .inplace
  input := anyMapping
  output := anyMapping
  invoke _ _ := throw error

end Pipeline.Stock
