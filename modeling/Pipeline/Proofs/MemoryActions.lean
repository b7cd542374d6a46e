import Pipeline.Proofs.EffectLogic
import Pipeline.World

/-!
# Actions on memory

All that an action on memory emits is about memory (`Memory.get_emits` and the like), so
it reports no step, no evaluator and no loop.

On a store in process it has nothing to do with the files (`Memory.get_inProcess` and the
like).
-/

namespace Pipeline

open Effect (Emits)

/-- The message is about memory. -/
def Message.IsMemory : Message → Prop
  | .memoryStored .. | .memoryLoaded .. | .memoryDefaultUsed .. | .memoryFlushed .. => True
  | _ => False

/-- The event is about memory. -/
def Event.IsMemory (event : Event) : Prop := event.message.IsMemory

/-- A message about memory, sent to all who listen. -/
theorem emits_broadcast {σ ε : Type} (message : Message) (h : message.IsMemory) :
    Emits (Effect.emit message.broadcast : Effect σ ε Unit) Event.IsMemory := by
  apply Emits.emit
  intro event hmem
  cases List.mem_singleton.mp hmem
  exact h

namespace FileStore

/-- A change of the store alone is silent. -/
theorem update_emits (f : FileStore → FileStore) : Emits (update f) Event.IsMemory :=
  Emits.get.bind fun _ => Emits.set _

theorem add_emits (key : String) (value : Value) : Emits (add key value) Event.IsMemory := by
  refine Emits.get.bind fun ⟨s, fs⟩ => ?_
  refine (Emits.ofExcept _).bind fun _ => ?_
  exact (Emits.set _).bind fun _ => (Emits.ofExcept _).bind fun _ => update_emits _

/-- Reading past the cache reports what was loaded. -/
theorem retrieve_emits (key : String) : Emits (retrieve key) Event.IsMemory := by
  refine Emits.get.bind fun ⟨s, fs⟩ => ?_
  dsimp only
  split
  · exact Emits.pure _
  · refine (Emits.ofExcept _).bind fun path => ?_
    split
    · exact Emits.throw _
    · exact Emits.throw _
    · split
      · exact Emits.throw _
      · exact (emits_broadcast (.memoryLoaded key path) trivial).bind fun _ => Emits.pure _

/-- Removing a file is silent, whether there is one or not. -/
theorem removeFile_emits (key : String) : Emits (removeFile key) Event.IsMemory := by
  refine Emits.get.bind fun ⟨s, fs⟩ => ?_
  refine (Emits.ofExcept _).bind fun _ => (Emits.set _).bind fun _ => ?_
  split
  · exact Emits.pure _
  · exact Emits.pure _
  · exact Emits.throw _

theorem delete_emits (key : String) : Emits (delete key) Event.IsMemory :=
  (update_emits _).bind fun _ => (removeFile_emits key).bind fun _ => update_emits _

theorem removeFiles_emits (keys : List String) : Emits (removeFiles keys) Event.IsMemory := by
  induction keys with
  | nil => exact Emits.pure _
  | cons key rest ih => exact (removeFile_emits key).bind fun _ => ih

theorem flush_emits : Emits flush Event.IsMemory :=
  Emits.get.bind fun _ => (update_emits _).bind fun _ => removeFiles_emits _

end FileStore

namespace Store

/-- An operation in process is silent; one in files emits what it emits there. -/
theorem act_emits {α : Type} {P : Event → Prop}
    (inProcess : Record → Except MemoryError (α × Record)) {inFiles : FileStore.Action α}
    (h : Emits inFiles P) : Emits (act inProcess inFiles) P := by
  rintro ⟨s, fs⟩ event hmem
  cases s with
  | inProcess entries =>
    simp only [act] at hmem
    split at hmem <;> cases hmem
  | inFiles store => exact h event hmem

theorem add_emits (key : String) (value : Value) : Emits (add key value) Event.IsMemory :=
  act_emits _ (FileStore.add_emits key value)

theorem retrieve_emits (key : String) : Emits (retrieve key) Event.IsMemory :=
  act_emits _ (FileStore.retrieve_emits key)

theorem delete_emits (key : String) : Emits (delete key) Event.IsMemory :=
  act_emits _ (FileStore.delete_emits key)

theorem flush_emits : Emits flush Event.IsMemory := act_emits _ FileStore.flush_emits

end Store

namespace Memory

/-- An entry that is set is reported once it is stored. -/
theorem set_emits (key : String) (value : Value) : Emits (set key value) Event.IsMemory := by
  refine (Store.add_emits key value).bind fun _ => ?_
  exact Emits.get.bind fun _ => emits_broadcast _ trivial

/-- A default that is used is reported. -/
theorem lookup_emits (key : String) (default : Record) :
    Emits (lookup key default) Event.IsMemory := by
  refine (Store.retrieve_emits key).tryCatch fun e => ?_
  split
  · exact (emits_broadcast (.memoryDefaultUsed key) trivial).bind fun _ => Emits.pure _
  · exact Emits.throw _

/-- Reading several entries reports on each. -/
theorem get_emits (default : Record) (delete : Bool) (identifiers : List Identifier)
    (register : Record) : Emits (get default delete identifiers register) Event.IsMemory := by
  induction identifiers generalizing register with
  | nil => exact Emits.pure _
  | cons identifier rest ih =>
    refine (lookup_emits _ _).bind fun value => ?_
    cases delete with
    | false => exact (Emits.pure _).bind fun _ => ih _
    | true => exact (Store.delete_emits _).bind fun _ => ih _

theorem deleteAll_emits (keys : List String) : Emits (deleteAll keys) Event.IsMemory := by
  induction keys with
  | nil => exact Emits.pure _
  | cons key rest ih => exact (Store.delete_emits key).bind fun _ => ih

/-- A flush is reported when it is done. -/
theorem flush_emits : Emits flush Event.IsMemory := by
  refine Emits.get.bind fun _ => Store.flush_emits.bind fun _ => ?_
  exact emits_broadcast _ trivial

end Memory

/-- An action on one memory of the world emits what it emits on the store. -/
theorem World.onMemory_emits {α : Type} {P : Event → Prop} (id : MemoryId) {x : Store.Action α}
    (h : Emits x P) : Emits (World.onMemory id x) P :=
  (h.zoom _ _).mapError _

/-! ## Stores in process -/

/-- On a store in process the action keeps to the store: the files are not looked at, and
stay as they are. -/
def Store.InProcess {α : Type} (x : Store.Action α) : Prop :=
  ∀ entries : Record, ∃ result events entries', ∀ fs : Files,
    x (.inProcess entries, fs) = ⟨result, events, (.inProcess entries', fs)⟩

namespace Store.InProcess

variable {α β : Type} {x : Store.Action α} {f : α → Store.Action β}

/-- An answer at hand looks at neither the store nor the files. -/
theorem pure (a : α) : InProcess (Pure.pure a : Store.Action α) :=
  fun entries => ⟨.ok a, [], entries, fun _ => rfl⟩

theorem throw (error : MemoryError) : InProcess (MonadExcept.throw error : Store.Action α) :=
  fun entries => ⟨.error error, [], entries, fun _ => rfl⟩

theorem emit (events : List Event) : InProcess (Effect.emit events : Store.Action Unit) :=
  fun entries => ⟨.ok (), events, entries, fun _ => rfl⟩

/-- What follows starts from the entries that the first part left. -/
theorem bind (hx : InProcess x) (hf : ∀ a, InProcess (f a)) : InProcess (x >>= f) := by
  intro entries
  obtain ⟨error | a, events, entries', hrunx⟩ := hx entries
  · exact ⟨.error error, events, entries', fun fs => Effect.bind_of_error (hrunx fs)⟩
  · obtain ⟨result, second, last, hrunf⟩ := hf a entries'
    refine ⟨result, events ++ second, last, fun fs => ?_⟩
    rw [Effect.bind_of_ok (hrunx fs), hrunf fs]
    rfl

/-- What looks at the store, and not at the files. -/
theorem get {g : Store × Files → Store.Action α}
    (h : ∀ entries : Record, ∃ y, InProcess y ∧ ∀ fs, g (.inProcess entries, fs) = y) :
    InProcess (Effect.get >>= g) := by
  intro entries
  obtain ⟨y, hy, hg⟩ := h entries
  obtain ⟨result, events, entries', hrun⟩ := hy entries
  refine ⟨result, events, entries', fun fs => ?_⟩
  rw [Effect.get_bind, hg fs, hrun fs]

/-- A handler starts from the entries that the failed part left. -/
theorem tryCatch {handle : MemoryError → Store.Action α} (hx : InProcess x)
    (hhandle : ∀ error, InProcess (handle error)) :
    InProcess (MonadExcept.tryCatch x handle) := by
  intro entries
  obtain ⟨error | a, events, entries', hrunx⟩ := hx entries
  · obtain ⟨result, second, last, hrun⟩ := hhandle error entries'
    refine ⟨result, events ++ second, last, fun fs => ?_⟩
    rw [Effect.tryCatch_of_error (hrunx fs), hrun fs]
    rfl
  · exact ⟨.ok a, events, entries', fun fs => Effect.tryCatch_of_ok (hrunx fs)⟩

/-- On a store in process, an operation is what it does to the entries. -/
theorem act (inProcess : Record → Except MemoryError (α × Record))
    (inFiles : FileStore.Action α) : InProcess (Store.act inProcess inFiles) := by
  intro entries
  cases h : inProcess entries with
  | error error => exact ⟨.error error, [], entries, fun _ => by simp only [Store.act, h]⟩
  | ok answer => exact ⟨.ok answer.1, [], answer.2, fun _ => by simp only [Store.act, h]⟩

end Store.InProcess

namespace Store

theorem add_inProcess (key : String) (value : Value) : InProcess (add key value) := .act _ _

theorem retrieve_inProcess (key : String) : InProcess (retrieve key) := .act _ _

theorem delete_inProcess (key : String) : InProcess (delete key) := .act _ _

theorem flush_inProcess : InProcess flush := .act _ _

variable {entries : Record} {key : String}

/-- In process, an entry reads as the value it was given. -/
theorem retrieve_of_entry {value : Value} (h : entries.get? key = some value) (fs : Files) :
    retrieve key (.inProcess entries, fs) = ⟨.ok value, [], (.inProcess entries, fs)⟩ := by
  simp only [retrieve, act, h]

/-- In process, a key without an entry is not found. -/
theorem retrieve_of_no_entry (h : entries.get? key = none) (fs : Files) :
    retrieve key (.inProcess entries, fs) =
      ⟨.error (.notFound key), [], (.inProcess entries, fs)⟩ := by
  simp only [retrieve, act, h]

/-- An entry that is not there may be taken out too. -/
theorem delete_apply (key : String) (entries : Record) (fs : Files) :
    delete key (.inProcess entries, fs) = ⟨.ok (), [], (.inProcess (entries.erase key), fs)⟩ := rfl

end Store

namespace Memory

open Store (InProcess)

/-- Setting an entry and reporting it keeps to the store. -/
theorem set_inProcess (key : String) (value : Value) : InProcess (set key value) := by
  refine (Store.add_inProcess key value).bind fun _ => ?_
  exact InProcess.get fun entries => ⟨_, InProcess.emit _, fun _ => rfl⟩

/-- Reading with a default keeps to the store. -/
theorem lookup_inProcess (key : String) (default : Record) :
    InProcess (lookup key default) := by
  refine (Store.retrieve_inProcess key).tryCatch fun error => ?_
  split
  · exact (InProcess.emit _).bind fun _ => InProcess.pure _
  · exact InProcess.throw _

/-- So does reading several entries, popped or copied. -/
theorem get_inProcess (default : Record) (delete : Bool) (identifiers : List Identifier)
    (register : Record) : InProcess (get default delete identifiers register) := by
  induction identifiers generalizing register with
  | nil => exact InProcess.pure _
  | cons identifier rest ih =>
    refine (lookup_inProcess _ _).bind fun value => ?_
    cases delete with
    | false => exact (InProcess.pure _).bind fun _ => ih _
    | true => exact (Store.delete_inProcess _).bind fun _ => ih _

theorem deleteAll_inProcess (keys : List String) : InProcess (deleteAll keys) := by
  induction keys with
  | nil => exact InProcess.pure _
  | cons key rest ih => exact (Store.delete_inProcess key).bind fun _ => ih

theorem flush_inProcess : InProcess flush :=
  InProcess.get fun _ =>
    ⟨_, Store.flush_inProcess.bind fun _ => InProcess.emit _, fun _ => rfl⟩

end Memory

/-! ## One memory of the world -/

/-- The world with one memory and the files as an action has left them. -/
def World.withMemory (w : World) (id : MemoryId) (after : Store × Files) : World :=
  ⟨w.memories.set id after.1, after.2⟩

/-- One memory is as it was left, and the others as they were. -/
theorem World.memory_withMemory (w : World) (id other : MemoryId) (after : Store × Files) :
    (w.withMemory id after).memory other = if other = id then after.1 else w.memory other :=
  Memories.get_set w.memories id other after.1

/-- Of two changes to one memory the second stays. -/
theorem World.withMemory_withMemory (w : World) (id : MemoryId) (mid after : Store × Files) :
    (w.withMemory id mid).withMemory id after = w.withMemory id after := by
  simp [withMemory, Memories.set, List.filter_filter]

/-- What an action on a memory does to the world is what it does to the store and the files. -/
theorem World.onMemory_of_run {α : Type} {id : MemoryId} {x : Store.Action α} {w : World}
    {result : Except MemoryError α} {events : List Event} {after : Store × Files}
    (h : x (w.memory id, w.files) = ⟨result, events, after⟩) :
    World.onMemory id x w = ⟨result.mapError .memory, events, w.withMemory id after⟩ := by
  simp only [World.onMemory, Effect.mapError, Effect.zoom, h, Run.mapError]
  rfl

/-! ## The files of the world -/

/-- What an action on the files does to the world is what it does to the files. -/
theorem World.onFiles_of_run {ε α : Type} {x : Effect Files ε α} {w : World} {result : Except ε α}
    {events : List Event} {fs : Files} (h : x w.files = ⟨result, events, fs⟩) :
    World.onFiles x w = ⟨result, events, { w with files := fs }⟩ := by
  simp only [World.onFiles, Effect.zoom, h]

end Pipeline
