import Pipeline.Decode.Fault
import Pipeline.Value

/-!
# Document formats

A *format* says how the nodes of a document are read as texts, truth values, lists
and so on; the forms of data built from these are decoded in one way for all
formats.  A structure is decoded from named fields, in the order of the document,
or from a list of its fields in the declared order.
-/

namespace Pipeline

/-- The parts of a structure. -/
inductive Fields (ν : Type)
  /-- Fields by name, in the order of the document. -/
  | named (fields : List (String × ν))
  /-- Fields by position. -/
  | positional (fields : List ν)

/-- How the nodes of a document are read. -/
structure Format (m : Type → Type) (ν : Type) where
  /-- Whether a list of fields may go on after the last field. -/
  lenient : Bool
  /-- Give up. -/
  fail : {α : Type} → DecodeFault → m α
  /-- A text. -/
  text : ν → m String
  /-- The path of a file. -/
  path : ν → m String
  /-- A truth value. -/
  boolean : ν → m Bool
  /-- One of some names. -/
  choice : List String → ν → m String
  /-- The node, unless it stands for nothing. -/
  optional : ν → m (Option ν)
  /-- Any value. -/
  value : ν → m Value
  /-- A mapping of any values. -/
  record : ν → m Record
  /-- The elements of a list. -/
  elements : ν → m (List ν)
  /-- The parts of a structure with a name. -/
  fields : String → ν → m (Fields ν)

/-- Whether a field may be left out. -/
inductive Presence
  /-- It must be there. -/
  | required
  /-- It may be left out where fields have names. -/
  | optional
  /-- It may be left out. -/
  | defaulted
  deriving DecidableEq, Repr

/-- A field of a structure: what a node does to the structure read so far. -/
structure Field (m : Type → Type) (ν S : Type) where
  name : String
  presence : Presence
  read : S → ν → m S

/-- The layout of a structure. -/
structure Layout (m : Type → Type) (ν S : Type) where
  name : String
  fields : List (Field m ν S)
  /-- Whether other fields are refused. -/
  strict : Bool

namespace Layout

variable {m : Type → Type} [Monad m] {ν S : Type}

/-- How many fields a list must give. -/
def lengthText (layout : Layout m ν S) : String :=
  let n := layout.fields.length
  "struct " ++ layout.name ++ " with " ++ toString n ++ (if n = 1 then " element" else " elements")

/-- Read fields by name, in the order of the document. -/
def readNamed (format : Format m ν) (layout : Layout m ν S) :
    List (String × ν) → (seen : List String) → S → m S
  | [], seen, s =>
    match layout.fields.find? fun f => f.presence = .required ∧ f.name ∉ seen with
    | some f => format.fail (.missingField f.name)
    | none => pure s
  | (key, node) :: rest, seen, s =>
    match layout.fields.find? fun f => f.name = key with
    | some f =>
      if key ∈ seen then format.fail (.duplicateField key)
      else do
        let s ← f.read s node
        readNamed format layout rest (key :: seen) s
    | none =>
      if layout.strict then
        format.fail (.unknownField key (layout.fields.map Field.name))
      else readNamed format layout rest seen s

/-- Read fields by position. -/
def readPositional (format : Format m ν) (layout : Layout m ν S) :
    List (Field m ν S) → (index : Nat) → List ν → S → m S
  | [], _, [], s => pure s
  | [], index, rest, s =>
    if format.lenient then pure s
    else format.fail (.invalidLength (index + rest.length) "fewer elements in array")
  | f :: fields, index, [], s =>
    if f.presence = .defaulted then readPositional format layout fields (index + 1) [] s
    else format.fail (.invalidLength index layout.lengthText)
  | f :: fields, index, node :: rest, s => do
    let s ← f.read s node
    readPositional format layout fields (index + 1) rest s

/-- Decode a structure from a node, starting from its defaults. -/
def decode (format : Format m ν) (layout : Layout m ν S) (defaults : S) (node : ν) : m S := do
  match ← format.fields layout.name node with
  | .named fields => layout.readNamed format fields [] defaults
  | .positional fields => layout.readPositional format layout.fields 0 fields defaults

end Layout

namespace Format

variable {m : Type → Type} [Monad m] {ν α : Type}

/-- Decode something that may stand for nothing. -/
def optionally (format : Format m ν) (read : ν → m α) (node : ν) : m (Option α) := do
  match ← format.optional node with
  | none => pure none
  | some node => some <$> read node

/-- Decode each element of a list. -/
def each (read : ν → m α) : List ν → m (List α)
  | [] => pure []
  | node :: rest => do
    let a ← read node
    let as ← each read rest
    pure (a :: as)

/-- Decode a list. -/
def listOf (format : Format m ν) (read : ν → m α) (node : ν) : m (List α) := do
  each read (← format.elements node)

/-- Decode one of some names into what it names. -/
def named (format : Format m ν) (names : List String) (ofName? : String → Option α) (node : ν) :
    m α := do
  let name ← format.choice names node
  match ofName? name with
  | some a => pure a
  | none => format.fail (.unknownVariant name names)

end Format

end Pipeline
