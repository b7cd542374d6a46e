import Pipeline.Error.Execution

/-!
# Scoped views

A *view* says which part of the register a unit of work reads, and where its
output goes.  It reads the value at its get key, or the whole register.  A mapping
without set key is merged into the register or replaces it; any other output lands
at the set key or else at the default key.
-/

namespace Pipeline

/-- The key for an output that is not a mapping. -/
def defaultOutputKey : String := "output"

/-- How an output meets the register. -/
inductive Replacing
  /-- It is merged into the register. -/
  | inplace
  /-- A mapping replaces the register. -/
  | local
  /-- It replaces the whole register, under its key if it has one. -/
  | global
  deriving DecidableEq, Repr, Inhabited

namespace Replacing

/-- All ways, in the order of their names in messages. -/
def all : List Replacing := [.inplace, .local, .global]

/-- The name in settings. -/
def name : Replacing → String
  | .inplace => "inplace"
  | .local => "local"
  | .global => "global"

/-- The way with a name. -/
def ofName? (s : String) : Option Replacing := all.find? fun r => r.name = s

end Replacing

/-- What an action gives. -/
inductive Output
  /-- Nothing: the register stays as it is. -/
  | unchanged
  | mapping (r : Record)
  | value (v : Value)
  deriving DecidableEq

/-- The output a value stands for: null is nothing, and a mapping is a mapping. -/
def Output.ofValue : Value → Output
  | .null => .unchanged
  | .mapping r => .mapping r
  | v => .value v

/-- The record of a mapping; any other value is a fault. -/
def Value.expectRecord : Value → Except ExecutionError Record
  | .mapping r => .ok r
  | v => .error (.invalidInput (.notMapping v.kind))

/-- Where a unit of work reads and writes. -/
structure View where
  getKey : Option String
  setKey : Option String
  defaultKey : String
  replace : Replacing
  deriving DecidableEq, Repr

namespace View

/-- The view of the whole register. -/
def root (defaultKey : String) (replace : Replacing) : View := ⟨none, none, defaultKey, replace⟩

/-- What the view reads from a register. -/
def select (view : View) (register : Record) : Except ExecutionError Value :=
  match view.getKey with
  | none => .ok (.mapping register)
  | some key =>
    match register.get? key with
    | some v => .ok v
    | none => .error (.missingKey key)

/-- The key for an output that is not merged. -/
def targetKey (view : View) : String := view.setKey.getD view.defaultKey

/-- The register with a value at the target key. -/
def store (view : View) (register : Record) (v : Value) : Record :=
  if view.replace = .global then (∅ : Record).insert view.targetKey v
  else register.insert view.targetKey v

/-- The register after an output. -/
def write (view : View) (register : Record) : Output → Record
  | .unchanged => register
  | .mapping r =>
    if view.setKey.isNone then
      if view.replace = .inplace then register.merge r else r
    else view.store register (.mapping r)
  | .value v => view.store register v

end View

end Pipeline
