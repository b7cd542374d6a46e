import Pipeline.Effect
import Pipeline.Json.Parser
import Pipeline.Json.Printer

/-!
# A store of values in files

Each entry that is put in is written to a file of its own in the store's
directory, as JSON text, and kept in a cache too.  Reading falls back to the file
for a key that is not cached, without caching it.

A key is *valid* when it cannot lead outside the directory.  Taking out one entry removes
the file of its key, whoever wrote it; taking out all entries removes the files of the
keys that the store has written, and leaves other files in the directory alone.

Each change is defined for any way to write and remove files, `FileCalls`, and is carried
out with the `willing` ones.
-/

namespace Pipeline

/-- The state of a store in files, apart from the files. -/
structure FileStore where
  /-- The directory as it was given. -/
  directory : String
  /-- The entries at hand. -/
  cache : Record
  /-- The keys whose files the store has written. -/
  written : Dict Unit

namespace FileStore

/-- Whether two dots stand side by side. -/
def hasTwoDots : List Char → Bool
  | '.' :: '.' :: _ => true
  | _ :: rest => hasTwoDots rest
  | [] => false

/-- Whether a key can name a file in the directory and nothing outside. -/
def validKey (key : String) : Bool :=
  key ≠ "" && key.toList.all (fun c => c ≠ '/' ∧ c ≠ '\\') && !hasTwoDots key.toList

/-- The name of a key's file. -/
def fileName (key : String) : String := key ++ ".json"

/-- The path of a key's file. -/
def filePath (s : FileStore) (key : String) : Except MemoryError String :=
  if validKey key then .ok (Files.join s.directory (fileName key)) else .error (.invalidKey key)

/-- An action on a store and the files. -/
abbrev Action (α : Type) := Effect (FileStore × Files) MemoryError α

/-- Open a store: the directory is made if it is missing.  Initial entries are
cached and not written. -/
def create (directory : String) (initial : Record) : Effect Files MemoryError FileStore :=
  fun fs =>
    match fs.makeDirectories directory with
    | (fs, .ok ()) => ⟨.ok ⟨directory, initial, ∅⟩, [], fs⟩
    | (fs, .error fault) => ⟨.error (.file directory fault), [], fs⟩

/-- A failed file operation on a key's file. -/
def fileError (key : String) {α : Type} : Except FileFault α → Except MemoryError α :=
  Except.mapError (.file key)

/-- Change the store apart from the files. -/
def update (f : FileStore → FileStore) : Action Unit := do
  let (s, fs) ← Effect.get
  Effect.set (f s, fs)

section

variable (calls : FileCalls)

/-- Put an entry in: write its file, then note the key and cache the value. -/
def addWith (key : String) (value : Value) : Action Unit := do
  let (s, fs) ← Effect.get
  let _ ← Effect.ofExcept (s.filePath key)
  let (left, written) := calls.writeIn fs s.directory (fileName key) (Json.render value)
  Effect.set (s, left)
  Effect.ofExcept (fileError key written)
  update fun s => { s with written := s.written.insert key (), cache := s.cache.insert key value }

/-- Remove a key's file; that there is none is no error. -/
def removeFileWith (key : String) : Action Unit := do
  let (s, fs) ← Effect.get
  let _ ← Effect.ofExcept (s.filePath key)
  let (left, removed) := calls.removeIn fs s.directory (fileName key)
  Effect.set (s, left)
  match removed with
  | .ok () => pure ()
  | .error .notFound => pure ()
  | .error fault => throw (.file key fault)

/-- Take an entry out: from the cache, then its file, then from the written keys. -/
def deleteWith (key : String) : Action Unit := do
  update fun s => { s with cache := s.cache.erase key }
  removeFileWith calls key
  update fun s => { s with written := s.written.erase key }

/-- Remove the files of some keys in order. -/
def removeFilesWith : List String → Action Unit
  | [] => pure ()
  | key :: rest => do
    removeFileWith calls key
    removeFilesWith rest

/-- Take all entries out, and remove the files the store has written. -/
def flushWith : Action Unit := do
  let (s, _) ← Effect.get
  update fun s => { s with cache := ∅, written := ∅ }
  removeFilesWith calls s.written.keys

end

/-- Put an entry in. -/
def add (key : String) (value : Value) : Action Unit := addWith .willing key value

/-- Remove a key's file. -/
def removeFile (key : String) : Action Unit := removeFileWith .willing key

/-- Take an entry out. -/
def delete (key : String) : Action Unit := deleteWith .willing key

/-- Remove the files of some keys in order. -/
def removeFiles (keys : List String) : Action Unit := removeFilesWith .willing keys

/-- Take all entries out. -/
def flush : Action Unit := flushWith .willing

/-- The value of a key, from the cache or else from its file. -/
def retrieve (key : String) : Action Value := do
  let (s, fs) ← Effect.get
  match s.cache.get? key with
  | some value => pure value
  | none =>
    let path ← Effect.ofExcept (s.filePath key)
    match (do fs.readAt (← fs.locateIn s.directory (fileName key)) : Except FileFault String) with
    | .error .notFound => throw (.notFound key)
    | .error fault => throw (.file key fault)
    | .ok text =>
      match Json.parse text with
      | .error fault => throw (.malformed key fault)
      | .ok value =>
        Effect.emit (Message.memoryLoaded key path).broadcast
        pure value

/-- Whether a key is cached or has a file. -/
def contains (s : FileStore) (fs : Files) (key : String) : Bool :=
  s.cache.contains key ||
    (validKey key &&
      match fs.locateIn s.directory (fileName key) with
      | .ok place => fs.isFileAt place
      | .error _ => false)

/-- The number of cached entries. -/
def size (s : FileStore) : Nat := s.cache.size

end FileStore

end Pipeline
