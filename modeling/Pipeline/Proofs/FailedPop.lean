import Pipeline.Interpreter
import Pipeline.Proofs.FailedChanges
import Pipeline.Proofs.MemoryActions

/-!
# Reading and removing that fails

A pop reads its entries one after another and removes each once it is read.  Nothing is put
back when a later one fails.  What is lost is exactly what was popped by then: memory is left
as if the keys in front of the failing one had been deleted (`failed_pop_keeps_rest`), and
every other key has the entry it had (`Store.SameEntry`).

In process only a read can fail.  In files the removal of an entry can fail too; what that
leaves of the entry is the matter of `failed_changes_leave`, and nothing is said of it here.
-/

namespace Pipeline

/-! ## A removal and the other keys -/

namespace FileStore

variable {directory key key' : String} {fs : Files} {s : FileStore}

/-- Removing one file keeps the texts of the other keys, be the directory there or not. -/
theorem removeFile_of_result (h : (removeFile key (s, fs)).result = .ok ()) :
    ∃ fs', removeFile key (s, fs) = ⟨.ok (), [], (s, fs')⟩ ∧
      ∀ key', key' ≠ key → fileText s.directory fs' key' = fileText s.directory fs key' := by
  obtain ⟨home, place, hhome, hplace⟩ | ⟨hvalid, hplace⟩ := place_of_removeFile h
  · refine ⟨_, removeFile_of_fileAt hplace, fun key' hne => ?_⟩
    rw [fileText_drop hplace hhome, if_neg hne]
  · exact ⟨fs, removeFile_of_no_directory hvalid hplace, fun _ _ => rfl⟩

theorem delete_of_result (h : (delete key (s, fs)).result = .ok ()) :
    ∃ fs', delete key (s, fs) =
        ⟨.ok (), [], ({ s with cache := s.cache.erase key, written := s.written.erase key }, fs')⟩ ∧
      ∀ key', key' ≠ key → fileText s.directory fs' key' = fileText s.directory fs key' := by
  rw [delete_eq, Effect.bind_of_ok (update_apply _)] at h ⊢
  obtain ⟨_, events, _, hrun, _⟩ := Effect.ok_of_bind h
  obtain ⟨fs', hremove, htext⟩ :=
    removeFile_of_result (s := { s with cache := s.cache.erase key }) (congrArg Run.result hrun)
  refine ⟨fs', ?_, htext⟩
  rw [Effect.bind_of_ok hremove]
  rfl

/-- A key is there when it is cached or its file can be read. -/
theorem contains_eq (s : FileStore) (fs : Files) (key : String) :
    s.contains fs key =
      (s.cache.contains key || (validKey key && (fileText s.directory fs key).isOk)) := by
  rw [contains, fileText]
  cases hplace : fs.locateIn s.directory (fileName key) with
  | error fault => rfl
  | ok place =>
    have hslash := Files.locateIn_slash hplace
    change (_ || (_ && fs.isFileAt place)) = (_ || (_ && (fs.readAt place).isOk))
    rw [Files.isFileAt, Files.readAt, hslash]
    cases fs.at? place.names with
    | none => rfl
    | some held => cases held <;> rfl

end FileStore

namespace Store

variable {key key' : String} {keys : List String} {before after : Store × Files}

/-- A key has the same entry in two states of a memory. -/
structure SameEntry (key : String) (before after : Store × Files) : Prop where
  reads : (retrieve key after).result = (retrieve key before).result
  there : after.1.contains after.2 key = before.1.contains before.2 key

theorem SameEntry.trans {mid : Store × Files} (h : SameEntry key before mid)
    (h' : SameEntry key mid after) : SameEntry key before after :=
  ⟨h'.reads.trans h.reads, h'.there.trans h.there⟩

theorem SameEntry.inProcess {entries entries' : Record} {fs : Files}
    (h : entries'.get? key = entries.get? key) :
    SameEntry key (.inProcess entries, fs) (.inProcess entries', fs) where
  reads := by
    simp only [retrieve, act, h]
    cases entries.get? key <;> rfl
  there := by
    change entries'.contains key = entries.contains key
    rw [Ascending.contains, Ascending.contains, h]

theorem SameEntry.inFiles {s s' : FileStore} {fs fs' : Files}
    (hdirectory : s'.directory = s.directory) (hcache : s'.cache.get? key = s.cache.get? key)
    (htext : FileStore.fileText s.directory fs' key = FileStore.fileText s.directory fs key) :
    SameEntry key (.inFiles s, fs) (.inFiles s', fs') where
  reads := by
    change (FileStore.retrieve key (s', fs')).result = (FileStore.retrieve key (s, fs)).result
    cases hcached : s.cache.get? key with
    | some value =>
      rw [FileStore.retrieve_of_cached hcached, FileStore.retrieve_of_cached (hcache.trans hcached)]
    | none =>
      obtain ⟨_, hbefore⟩ := FileStore.retrieve_of_not_cached fs hcached
      obtain ⟨_, hafter⟩ := FileStore.retrieve_of_not_cached fs' (hcache.trans hcached)
      rw [hbefore, hafter, hdirectory, htext]
  there := by
    change s'.contains fs' key = s.contains fs key
    rw [FileStore.contains_eq, FileStore.contains_eq, hdirectory, htext, Ascending.contains,
      Ascending.contains, hcache]

/-- Reading changes nothing. -/
theorem retrieve_state (key : String) (before : Store × Files) :
    (retrieve key before).state = before := by
  obtain ⟨store, fs⟩ := before
  cases store with
  | inProcess entries =>
    simp only [retrieve, act]
    cases entries.get? key <;> rfl
  | inFiles s => simp only [retrieve, act, FileStore.retrieve_state]

theorem act_persistent {α : Type} (inProcess : Record → Except MemoryError (α × Record))
    (inFiles : FileStore.Action α) (before : Store × Files) :
    (act inProcess inFiles before).state.1.persistent = before.1.persistent := by
  obtain ⟨store, fs⟩ := before
  cases store with
  | inProcess entries =>
    rw [act]
    cases inProcess entries <;> rfl
  | inFiles s => rfl

/-- Taking an entry out leaves the entries of the other keys. -/
theorem sameEntry_delete (h : (delete key before).result = .ok ()) (hne : key' ≠ key) :
    SameEntry key' before (delete key before).state := by
  obtain ⟨store, fs⟩ := before
  cases store with
  | inProcess entries =>
    refine SameEntry.inProcess ?_
    rw [Ascending.get?_erase, if_neg hne]
  | inFiles s =>
    obtain ⟨fs', hrun, htext⟩ := FileStore.delete_of_result h
    simp only [delete, act, hrun]
    refine SameEntry.inFiles rfl ?_ (htext key' hne)
    rw [Ascending.get?_erase, if_neg hne]

/-- In process an entry can always be taken out. -/
theorem persistent_of_delete_error {error : MemoryError}
    (h : (delete key before).result = .error error) : before.1.persistent = true := by
  obtain ⟨store, fs⟩ := before
  cases store with
  | inProcess entries => cases h
  | inFiles s => rfl

end Store

namespace Memory

variable {key key' : String} {keys : List String} {default register : Record}
variable {identifier : Identifier} {rest : List Identifier} {before : Store × Files}

theorem lookup_state (key : String) (default : Record) (before : Store × Files) :
    (lookup key default before).state = before := by
  have hstate := Store.retrieve_state key before
  rw [lookup]
  cases hread : Store.retrieve key before with
  | mk result events after =>
    rw [hread] at hstate
    cases result with
    | ok value => rw [Effect.tryCatch_of_ok hread]; exact hstate
    | error e =>
      rw [Effect.tryCatch_of_error hread, Run.after_state]
      cases e.isNotFound <;> cases default.get? key <;> exact hstate

theorem lookup_of_result {result : Except MemoryError Value}
    (h : (lookup key default before).result = result) :
    ∃ events, lookup key default before = ⟨result, events, before⟩ := by
  have hrun := Run.eq_of_result h
  rw [lookup_state] at hrun
  exact ⟨_, hrun⟩

/-- The rest is taken out of what the first removal leaves. -/
theorem deleteAll_cons (h : (Store.delete key before).result = .ok ()) (keys : List String) :
    (deleteAll (key :: keys) before).result =
        (deleteAll keys (Store.delete key before).state).result ∧
      (deleteAll (key :: keys) before).state =
        (deleteAll keys (Store.delete key before).state).state := by
  have hrun : delete key before = ⟨.ok (), _, _⟩ := Run.eq_of_result h
  rw [deleteAll, Effect.bind_of_ok hrun]
  exact ⟨rfl, rfl⟩

/-- Taking several entries out leaves the entries of the other keys. -/
theorem sameEntry_deleteAll (h : (deleteAll keys before).result = .ok ()) (hkey : key' ∉ keys) :
    Store.SameEntry key' before (deleteAll keys before).state := by
  induction keys generalizing before with
  | nil => exact ⟨rfl, rfl⟩
  | cons key rest ih =>
    rw [List.mem_cons, not_or] at hkey
    obtain ⟨_, events, after, hrun, _⟩ := Effect.ok_of_bind h
    have hdelete : (Store.delete key before).result = .ok () := congrArg Run.result hrun
    obtain ⟨hresult, hstate⟩ := deleteAll_cons hdelete rest
    rw [hresult] at h
    rw [hstate]
    exact (Store.sameEntry_delete hdelete hkey.1).trans (ih h hkey.2)

/-! ## Where a pop fails -/

theorem get_pop_cons (identifier : Identifier) (rest : List Identifier)
    (default register : Record) : get default true (identifier :: rest) register = (do
      let value ← lookup identifier.memoryKey default
      Store.delete identifier.memoryKey
      get default true rest (register.insert identifier.registerKey value)) := rfl

theorem get_copy_cons (identifier : Identifier) (rest : List Identifier)
    (default register : Record) : get default false (identifier :: rest) register = (do
      let value ← lookup identifier.memoryKey default
      get default false rest (register.insert identifier.registerKey value)) := rfl

/-- A pop goes on from where its first entry was removed. -/
theorem get_pop_of_ok {value : Value}
    (hread : (lookup identifier.memoryKey default before).result = .ok value)
    (hdelete : (Store.delete identifier.memoryKey before).result = .ok ())
    (rest : List Identifier) (register : Record) :
    ∃ events, get default true (identifier :: rest) register before =
      (get default true rest (register.insert identifier.registerKey value)
        (Store.delete identifier.memoryKey before).state).after events := by
  obtain ⟨first, hlookup⟩ := lookup_of_result hread
  rw [get_pop_cons, Effect.bind_of_ok hlookup, Effect.bind_of_ok (Run.eq_of_result hdelete),
    Run.after_after]
  exact ⟨_, rfl⟩

/-- A pop ends where an entry cannot be read. -/
theorem get_pop_of_read_error {error : MemoryError}
    (hread : (lookup identifier.memoryKey default before).result = .error error)
    (rest : List Identifier) (register : Record) :
    ∃ events, get default true (identifier :: rest) register before =
      ⟨.error error, events, before⟩ := by
  obtain ⟨events, hlookup⟩ := lookup_of_result hread
  rw [get_pop_cons, Effect.bind_of_error hlookup]
  exact ⟨_, rfl⟩

/-- A pop fails as a removal in it does. -/
theorem get_pop_of_delete_error {value : Value} {error : MemoryError}
    (hread : (lookup identifier.memoryKey default before).result = .ok value)
    (hdelete : (Store.delete identifier.memoryKey before).result = .error error) :
    (get default true (identifier :: rest) register before).result = .error error := by
  obtain ⟨first, hlookup⟩ := lookup_of_result hread
  rw [get_pop_cons, Effect.bind_of_ok hlookup, Effect.bind_of_error (Run.eq_of_result hdelete)]
  rfl

/-- Memory without the entries of some identifiers. -/
def without (popped : List Identifier) (before : Store × Files) : Store × Files :=
  (deleteAll (popped.map Identifier.memoryKey) before).state

/-- A pop that failed with an error: the identifiers in front of the one it failed at were
popped, which left memory as deleting their keys does, with the entries of the other keys.
Then that one could not be read, and this is how memory stays; or it could not be removed,
which happens in files only. -/
structure FailedAt (default register : Record) (popped : List Identifier) (identifier : Identifier)
    (error : MemoryError) (before after : Store × Files) : Prop where
  reached : ∃ register', (get default true popped register before).result = .ok register'
  removed : (deleteAll (popped.map Identifier.memoryKey) before).result = .ok ()
  others : ∀ key, key ∉ popped.map Identifier.memoryKey →
    Store.SameEntry key before (without popped before)
  stopped :
    ((lookup identifier.memoryKey default (without popped before)).result = .error error ∧
      after = without popped before) ∨
    (before.1.persistent = true ∧
      (∃ value, (lookup identifier.memoryKey default (without popped before)).result =
        .ok value) ∧
      (Store.delete identifier.memoryKey (without popped before)).result = .error error)

/-- One more popped in front. -/
theorem FailedAt.cons {popped : List Identifier} {failing : Identifier} {error : MemoryError}
    {after : Store × Files} {value : Value}
    (hread : (lookup identifier.memoryKey default before).result = .ok value)
    (hdelete : (Store.delete identifier.memoryKey before).result = .ok ())
    (h : FailedAt default (register.insert identifier.registerKey value) popped failing error
      (Store.delete identifier.memoryKey before).state after) :
    FailedAt default register (identifier :: popped) failing error before after := by
  obtain ⟨events, hrun⟩ := get_pop_of_ok hread hdelete popped register
  obtain ⟨hresult, hstate⟩ := deleteAll_cons hdelete (popped.map Identifier.memoryKey)
  have hpersistent : (Store.delete identifier.memoryKey before).state.1.persistent =
      before.1.persistent := Store.act_persistent _ _ before
  have hremoved : (deleteAll ((identifier :: popped).map Identifier.memoryKey) before).result =
      .ok () := hresult.trans h.removed
  refine ⟨?_, hremoved, fun key => sameEntry_deleteAll hremoved, ?_⟩
  · rw [hrun]
    exact h.reached
  · rw [without, List.map_cons, hstate, ← hpersistent]
    exact h.stopped

/-- Every failure of a pop is of that kind. -/
theorem failedAt_of_error {error : MemoryError} {identifiers : List Identifier}
    (h : (get default true identifiers register before).result = .error error) :
    ∃ popped identifier rest, identifiers = popped ++ identifier :: rest ∧
      FailedAt default register popped identifier error before
        (get default true identifiers register before).state := by
  induction identifiers generalizing register before with
  | nil => cases h
  | cons identifier rest ih =>
    cases hread : (lookup identifier.memoryKey default before).result with
    | error e =>
      obtain ⟨events, hrun⟩ := get_pop_of_read_error hread rest register
      rw [hrun] at h ⊢
      cases h
      exact ⟨[], identifier, rest, rfl, ⟨register, rfl⟩, rfl, fun _ _ => ⟨rfl, rfl⟩,
        .inl ⟨hread, rfl⟩⟩
    | ok value =>
      cases hdelete : (Store.delete identifier.memoryKey before).result with
      | error e =>
        rw [get_pop_of_delete_error hread hdelete] at h
        cases h
        exact ⟨[], identifier, rest, rfl, ⟨register, rfl⟩, rfl, fun _ _ => ⟨rfl, rfl⟩,
          .inr ⟨Store.persistent_of_delete_error hdelete, ⟨value, hread⟩, hdelete⟩⟩
      | ok _ =>
        obtain ⟨events, hrun⟩ := get_pop_of_ok hread hdelete rest register
        rw [hrun] at h ⊢
        obtain ⟨popped, failing, left, hsplit, hfailed⟩ := ih h
        exact ⟨identifier :: popped, failing, left, congrArg (identifier :: ·) hsplit,
          hfailed.cons hread hdelete⟩

end Memory

/-! ## The component -/

/-- The component that copies entries ends as the action on memory does, and leaves memory and
the files as that does. -/
theorem runGetMemory_of_get (instruction : GetInstruction) {identifiers : List Identifier}
    {default register : Record} {e : Evaluator} {w : World} {result : Except MemoryError Record}
    {events : List Event} {after : Store × Files}
    (h : Memory.get default (instruction = .pop) identifiers register (w.memory e.memory, w.files) =
      ⟨result, events, after⟩) :
    runGetMemory identifiers default instruction e register w =
      ⟨(result.map Outcome.next).mapError .memory, events, w.withMemory e.memory after⟩ := by
  have hget : e.getMemory register identifiers default (instruction = .pop) w =
      ⟨result.mapError .memory, events, w.withMemory e.memory after⟩ :=
    World.onMemory_of_run h
  rw [runGetMemory]
  cases result with
  | error cause =>
    rw [Effect.bind_of_error hget]
    rfl
  | ok register' =>
    rw [Effect.bind_of_ok hget]
    exact congrArg (Run.mk _ · _) (List.append_nil events)

/-! ## The result -/

/-- Reading entries and removing them does not put back what it has removed when it fails.
It has removed exactly the entries of the identifiers in front of the one that it failed at,
and the other keys have the entries they had.  Where that identifier could not be read, this
is all that happened to memory, so nothing is lost when it is the first.

The same holds of the component that pops entries of its evaluator's memory.  What any other
memory holds at hand stays.  The files are shared, so nothing is said of a memory over the same
directory. -/
theorem failed_pop_keeps_rest (default register : Record) (identifiers : List Identifier) :
    (∀ before error, (Memory.get default true identifiers register before).result = .error error →
      ∃ popped identifier rest, identifiers = popped ++ identifier :: rest ∧
        Memory.FailedAt default register popped identifier error before
          (Memory.get default true identifiers register before).state) ∧
    ∀ rounds name e w, ∃ z,
      (Component.getMemory name identifiers default .pop).run rounds e register w = some z ∧
      (∀ id, id ≠ e.memory → z.state.memory id = w.memory id) ∧
      ∀ error, z.result = .error error →
        ∃ cause popped identifier rest, error = .memory cause ∧
          identifiers = popped ++ identifier :: rest ∧
          Memory.FailedAt default register popped identifier cause (w.memory e.memory, w.files)
            (z.state.memory e.memory, z.state.files) := by
  constructor
  · intro before error h
    exact Memory.failedAt_of_error h
  · intro rounds name e w
    cases hget : Memory.get default true identifiers register (w.memory e.memory, w.files) with
    | mk result events after =>
      refine ⟨_, congrArg some (runGetMemory_of_get .pop hget), fun id hid => ?_, ?_⟩
      · rw [World.memory_withMemory, if_neg hid]
      · intro error herror
        cases result with
        | ok register' => cases herror
        | error cause =>
          cases herror
          obtain ⟨popped, identifier, rest, hsplit, hfailed⟩ :=
            Memory.failedAt_of_error (congrArg Run.result hget)
          rw [hget] at hfailed
          refine ⟨cause, popped, identifier, rest, rfl, hsplit, ?_⟩
          rw [World.memory_withMemory, if_pos rfl]
          exact hfailed

theorem failed_pop_loses_entry :
    (Memory.get ∅ true [.same "seed", .same "missing"] ∅ (.inProcess seeded, Files.empty)).result =
      .error (.notFound "missing") ∧
    (Store.retrieve "seed" (.inProcess seeded, Files.empty)).result = .ok .null ∧
    (Store.retrieve "seed"
      (Memory.get ∅ true [.same "seed", .same "missing"] ∅
        (.inProcess seeded, Files.empty)).state).result = .error (.notFound "seed") :=
  ⟨rfl, rfl, rfl⟩

/-- A store in files with two entries. -/
def stockedStore : FileStore := ⟨"memory", seeded.insert "spare" (.bool true), ∅⟩

/-- An entry, a key with a default, one without, and another entry. -/
def greedyPop : List Identifier :=
  [.same "seed", ⟨"other", "o"⟩, .same "missing", .same "spare"]

/-- The default of the second. -/
def otherDefault : Record := (∅ : Record).insert "other" (.bool false)

/-- A world whose memory 0 is that store. -/
def stockedWorld : World := ⟨⟨[(0, .inFiles stockedStore)]⟩, madeMemory⟩

theorem greedyPop_keeps_rest :
    (Memory.get otherDefault true greedyPop ∅ (.inFiles stockedStore, madeMemory)).result =
      .error (.notFound "missing") ∧
    (∃ popped identifier rest, greedyPop = popped ++ identifier :: rest ∧
      Memory.FailedAt otherDefault ∅ popped identifier (.notFound "missing")
        (.inFiles stockedStore, madeMemory)
        (Memory.get otherDefault true greedyPop ∅ (.inFiles stockedStore, madeMemory)).state) ∧
    ∃ z, (Component.getMemory "Pop" greedyPop otherDefault .pop).run 1
        (.make "Root" .off true 0) ∅ stockedWorld = some z ∧
      z.result = .error (.memory (.notFound "missing")) ∧
      ∃ popped identifier rest, greedyPop = popped ++ identifier :: rest ∧
        Memory.FailedAt otherDefault ∅ popped identifier (.notFound "missing")
          (.inFiles stockedStore, madeMemory) (z.state.memory 0, z.state.files) := by
  obtain ⟨hmemory, hcomponent⟩ := failed_pop_keeps_rest otherDefault ∅ greedyPop
  refine ⟨rfl, hmemory _ _ rfl, ?_⟩
  obtain ⟨z, hrun, _, hfails⟩ := hcomponent 1 "Pop" (.make "Root" .off true 0) stockedWorld
  have hresult : z.result = .error (.memory (.notFound "missing")) := by
    cases hrun
    rfl
  obtain ⟨cause, popped, identifier, rest, hcause, hsplit, hfailed⟩ := hfails _ hresult
  cases hcause
  exact ⟨z, hrun, hresult, popped, identifier, rest, hsplit, hfailed⟩

end Pipeline
