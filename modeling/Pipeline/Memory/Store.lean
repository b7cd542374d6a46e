import Pipeline.Memory.FileStore

/-!
# Memory stores

A store keeps its entries in process or in files.  The two answer alike, save that
a store in files also knows keys whose files are there.
-/

namespace Pipeline

/-- Where the entries of a memory are kept. -/
inductive Store
  | inProcess (entries : Record)
  | inFiles (store : FileStore)

namespace Store

/-- An action on a store and the files. -/
abbrev Action (α : Type) := Effect (Store × Files) MemoryError α

/-- A store with nothing in it. -/
def empty : Store := .inProcess ∅

instance : Inhabited Store := ⟨empty⟩

/-- Whether entries outlive the process. -/
def persistent : Store → Bool
  | .inProcess _ => false
  | .inFiles _ => true

/-- Open a store: in files when a directory is given. -/
def create (directory : Option String) (initial : Record) : Effect Files MemoryError Store :=
  match directory with
  | none => pure (.inProcess initial)
  | some directory => do
    let store ← FileStore.create directory initial
    pure (.inFiles store)

/-- Act on a store in process, or on one in files. -/
def act {α : Type} (inProcess : Record → Except MemoryError (α × Record))
    (inFiles : FileStore.Action α) : Action α := fun (s, fs) =>
  match s with
  | .inProcess entries =>
    match inProcess entries with
    | .ok (a, entries) => ⟨.ok a, [], (.inProcess entries, fs)⟩
    | .error e => ⟨.error e, [], (.inProcess entries, fs)⟩
  | .inFiles store =>
    let r := inFiles (store, fs)
    ⟨r.result, r.events, (.inFiles r.state.1, r.state.2)⟩

/-- Put an entry in. -/
def add (key : String) (value : Value) : Action Unit :=
  act (fun entries => .ok ((), entries.insert key value)) (FileStore.add key value)

/-- The value of a key. -/
def retrieve (key : String) : Action Value :=
  act
    (fun entries =>
      match entries.get? key with
      | some value => .ok (value, entries)
      | none => .error (.notFound key))
    (FileStore.retrieve key)

/-- Take an entry out; that there is none is no error. -/
def delete (key : String) : Action Unit :=
  act (fun entries => .ok ((), entries.erase key)) (FileStore.delete key)

/-- Take all entries out. -/
def flush : Action Unit := act (fun _ => .ok ((), ∅)) FileStore.flush

/-- Whether there is an entry for a key. -/
def contains (s : Store) (fs : Files) (key : String) : Bool :=
  match s with
  | .inProcess entries => entries.contains key
  | .inFiles store => store.contains fs key

/-- The number of entries at hand. -/
def size : Store → Nat
  | .inProcess entries => entries.size
  | .inFiles store => store.size

end Store

end Pipeline
