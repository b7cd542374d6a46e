import Pipeline.Memory.Store
import Pipeline.Proofs.FileStore

/-!
# A store in files answers like one in process

Both kinds of store take the same operations, and `answers` lists what a run of
them is told.  Opened over a directory without files, a store in files tells what a
store in process with the same initial entries tells
(`answers_inFiles_eq_inProcess`).

The two are held together by `Mirrors`.  The cache is the record of the store in
process.  A usable key has a file just when the store has written it, and a written
key is usable and cached.  So a key that is not cached has no file, and reading past
the cache finds nothing.
-/

namespace Pipeline

/-! ## Runs of operations -/

/-- An operation on a store. -/
inductive Operation
  | add (key : String) (value : Value)
  | retrieve (key : String)
  | delete (key : String)
  | flush
  | contains (key : String)
  | size
  | isEmpty

/-- What an operation answers. -/
inductive Answer
  | done (result : Except MemoryError Unit)
  | read (result : Except MemoryError Value)
  | whether (holds : Bool)
  | count (number : Nat)

namespace Operation

/-- The key an operation is about. -/
def key? : Operation → Option String
  | .add key _ => some key
  | .retrieve key => some key
  | .delete key => some key
  | .contains key => some key
  | .flush => none
  | .size => none
  | .isEmpty => none

/-- Do an operation: its answer, and the store and files after it. -/
def perform : Operation → Store × Files → Answer × (Store × Files)
  | .add key value, s => (.done (Store.add key value s).result, (Store.add key value s).state)
  | .retrieve key, s => (.read (Store.retrieve key s).result, (Store.retrieve key s).state)
  | .delete key, s => (.done (Store.delete key s).result, (Store.delete key s).state)
  | .flush, s => (.done (Store.flush s).result, (Store.flush s).state)
  | .contains key, s => (.whether (s.1.contains s.2 key), s)
  | .size, s => (.count s.1.size, s)
  | .isEmpty, s => (.whether (decide (s.1.size = 0)), s)

/-- The answers to some operations, done one after another. -/
def answers : List Operation → Store × Files → List Answer
  | [], _ => []
  | operation :: rest, s => (operation.perform s).1 :: answers rest (operation.perform s).2

end Operation

/-- There are no files in the directory itself. -/
def Files.HoldsNoFiles (fs : Files) (directory : String) : Prop :=
  ∀ home name text, fs.enter directory = .ok home → fs.at? (home ++ [name]) ≠ some (.file text)

/-! ## Stores that mirror each other -/

/-- A store in files, with the files, stands for the entries of a store in process. -/
structure Mirrors (usable : String → Prop) (entries : Record) (s : FileStore) (fs : Files) :
    Prop where
  cache : s.cache = entries
  reach : ∀ {key}, usable key → FileStore.Usable s.directory fs key
  backed : ∀ {key}, usable key →
    FileStore.hasFile s.directory fs key = s.written.contains key
  written : ∀ {key}, s.written.contains key = true → usable key ∧ entries.contains key = true

namespace Mirrors

variable {usable : String → Prop} {entries : Record} {s : FileStore} {fs : Files} {key : String}

theorem add (h : Mirrors usable entries s fs) (hkey : usable key) (value : Value) :
    ∃ s' fs', FileStore.add key value (s, fs) = ⟨.ok (), [], (s', fs')⟩ ∧
      Mirrors usable (entries.insert key value) s' fs' := by
  obtain ⟨place, hplace⟩ := h.reach hkey
  refine ⟨_, _, FileStore.add_of_fileAt hplace, ?_⟩
  constructor
  · rw [← h.cache]
  · intro k hk
    obtain ⟨place', hplace'⟩ := h.reach hk
    exact ⟨place', hplace.put hplace' _⟩
  · intro k hk
    obtain ⟨place', hplace'⟩ := h.reach hk
    rw [hplace.hasFile_put hplace', h.backed hk, Ascending.contains_insert]
  · intro k hk
    rw [Ascending.contains_insert, Bool.or_eq_true, decide_eq_true_eq] at hk ⊢
    rcases hk with rfl | hk
    · exact ⟨hkey, .inl rfl⟩
    · obtain ⟨husable, hcached⟩ := h.written hk
      exact ⟨husable, .inr hcached⟩

theorem delete (h : Mirrors usable entries s fs) (hkey : usable key) :
    ∃ s' fs', FileStore.delete key (s, fs) = ⟨.ok (), [], (s', fs')⟩ ∧
      Mirrors usable (entries.erase key) s' fs' := by
  obtain ⟨place, hplace⟩ := h.reach hkey
  refine ⟨_, _, FileStore.delete_of_fileAt hplace, ?_⟩
  constructor
  · rw [← h.cache]
  · intro k hk
    obtain ⟨place', hplace'⟩ := h.reach hk
    exact ⟨place', hplace.drop hplace'⟩
  · intro k hk
    obtain ⟨place', hplace'⟩ := h.reach hk
    rw [hplace.hasFile_drop hplace', h.backed hk, Ascending.contains_erase]
  · intro k hk
    rw [Ascending.contains_erase, Bool.and_eq_true] at hk ⊢
    obtain ⟨hne, hwritten⟩ := hk
    obtain ⟨husable, hcached⟩ := h.written hwritten
    exact ⟨husable, hne, hcached⟩

theorem flush (h : Mirrors usable entries s fs) :
    ∃ s' fs', FileStore.flush (s, fs) = ⟨.ok (), [], (s', fs')⟩ ∧ Mirrors usable ∅ s' fs' := by
  obtain ⟨fs', hrun, hleft⟩ :=
    FileStore.flush_of_usable fun key hwritten => h.reach (h.written hwritten).1
  refine ⟨_, fs', hrun, ?_⟩
  constructor
  · rfl
  · intro k hk
    exact (hleft k (h.reach hk)).1
  · intro k hk
    -- every file of a usable key is a written one, so none is left
    rw [(hleft k (h.reach hk)).2, h.backed hk, Bool.not_and_self]
    rfl
  · intro k hk
    cases hk

/-- A key that is not cached has no file. -/
theorem hasFile_of_not_cached (h : Mirrors usable entries s fs) (hkey : usable key)
    (hno : entries.contains key = false) : FileStore.hasFile s.directory fs key = false := by
  rw [h.backed hkey]
  cases hwritten : s.written.contains key with
  | false => rfl
  | true =>
    rw [(h.written hwritten).2] at hno
    cases hno

theorem retrieve_of_some (h : Mirrors usable entries s fs) {value : Value}
    (hvalue : entries.get? key = some value) :
    FileStore.retrieve key (s, fs) = ⟨.ok value, [], (s, fs)⟩ := by
  apply FileStore.retrieve_of_cached
  rw [h.cache, hvalue]

theorem retrieve_of_none (h : Mirrors usable entries s fs) (hkey : usable key)
    (hnone : entries.get? key = none) :
    FileStore.retrieve key (s, fs) = ⟨.error (.notFound key), [], (s, fs)⟩ := by
  obtain ⟨place, hplace⟩ := h.reach hkey
  have hno : entries.contains key = false := by rw [Ascending.contains, hnone]; rfl
  apply FileStore.retrieve_of_no_file _ hplace (h.hasFile_of_not_cached hkey hno)
  rw [h.cache, hnone]

theorem contains (h : Mirrors usable entries s fs) (hkey : usable key) :
    s.contains fs key = entries.contains key := by
  rw [FileStore.contains_of_usable (h.reach hkey), h.cache]
  cases hcached : entries.contains key with
  | true => rfl
  | false => exact h.hasFile_of_not_cached hkey hcached

theorem size (h : Mirrors usable entries s fs) : s.size = entries.size := by
  rw [FileStore.size, h.cache]

/-- One operation is answered alike and leaves stores that mirror each other. -/
theorem perform (h : Mirrors usable entries s fs) (operation : Operation) (other : Files)
    (hkey : ∀ key, operation.key? = some key → usable key) :
    ∃ answer entries' s' fs',
      operation.perform (.inFiles s, fs) = (answer, (.inFiles s', fs')) ∧
      operation.perform (.inProcess entries, other) = (answer, (.inProcess entries', other)) ∧
      Mirrors usable entries' s' fs' := by
  cases operation with
  | add key value =>
    obtain ⟨s', fs', hrun, hafter⟩ := h.add (hkey key rfl) value
    refine ⟨.done (.ok ()), _, s', fs', ?_, rfl, hafter⟩
    rw [Operation.perform, Store.add, Store.act, hrun]
  | retrieve key =>
    cases hvalue : entries.get? key with
    | some value =>
      refine ⟨.read (.ok value), entries, s, fs, ?_, ?_, h⟩
      · rw [Operation.perform, Store.retrieve, Store.act, h.retrieve_of_some hvalue]
      · simp only [Operation.perform, Store.retrieve, Store.act, hvalue]
    | none =>
      refine ⟨.read (.error (.notFound key)), entries, s, fs, ?_, ?_, h⟩
      · rw [Operation.perform, Store.retrieve, Store.act, h.retrieve_of_none (hkey key rfl) hvalue]
      · simp only [Operation.perform, Store.retrieve, Store.act, hvalue]
  | delete key =>
    obtain ⟨s', fs', hrun, hafter⟩ := h.delete (hkey key rfl)
    refine ⟨.done (.ok ()), _, s', fs', ?_, rfl, hafter⟩
    rw [Operation.perform, Store.delete, Store.act, hrun]
  | flush =>
    obtain ⟨s', fs', hrun, hafter⟩ := h.flush
    refine ⟨.done (.ok ()), _, s', fs', ?_, rfl, hafter⟩
    rw [Operation.perform, Store.flush, Store.act, hrun]
  | contains key =>
    refine ⟨.whether (entries.contains key), entries, s, fs, ?_, rfl, h⟩
    rw [Operation.perform, Store.contains, h.contains (hkey key rfl)]
  | size =>
    refine ⟨.count entries.size, entries, s, fs, ?_, rfl, h⟩
    rw [Operation.perform, Store.size, h.size]
  | isEmpty =>
    refine ⟨.whether (decide (entries.size = 0)), entries, s, fs, ?_, rfl, h⟩
    rw [Operation.perform, Store.size, h.size]

/-- Stores that mirror each other answer every run alike. -/
theorem answers (h : Mirrors usable entries s fs) (operations : List Operation) (other : Files)
    (hkeys : ∀ operation ∈ operations, ∀ key, operation.key? = some key → usable key) :
    Operation.answers operations (.inFiles s, fs) =
      Operation.answers operations (.inProcess entries, other) := by
  induction operations generalizing entries s fs with
  | nil => rfl
  | cons operation rest ih =>
    obtain ⟨answer, entries', s', fs', hfiles, hprocess, hafter⟩ :=
      h.perform operation other (hkeys operation (by simp))
    have hrest : ∀ operation ∈ rest, ∀ key, operation.key? = some key → usable key := by
      intro operation hmem
      exact hkeys operation (by simp [hmem])
    rw [Operation.answers, Operation.answers, hfiles, hprocess]
    rw [ih hafter hrest]

end Mirrors

/-! ## Opening a store -/

theorem FileStore.create_eq_ok {directory : String} {initial : Record} {fs opened : Files}
    {events : List Event} {s : FileStore}
    (h : FileStore.create directory initial fs = ⟨.ok s, events, opened⟩) :
    s = ⟨directory, initial, ∅⟩ := by
  rw [FileStore.create] at h
  split at h
  · cases h
    rfl
  · cases h

theorem Store.create_eq_ok {directory : String} {initial : Record} {fs opened : Files}
    {events : List Event} {store : Store}
    (h : Store.create (some directory) initial fs = ⟨.ok store, events, opened⟩) :
    store = .inFiles ⟨directory, initial, ∅⟩ := by
  rw [Store.create] at h
  cases hfiles : FileStore.create directory initial fs with
  | mk result first mid =>
    cases result with
    | error e =>
      rw [Effect.bind_of_error hfiles] at h
      cases h
    | ok s =>
      rw [Effect.bind_of_ok hfiles, FileStore.create_eq_ok hfiles] at h
      cases h
      rfl

/-- A key has no file in a directory without files. -/
theorem Files.HoldsNoFiles.hasFile {fs : Files} {directory key : String}
    (h : fs.HoldsNoFiles directory) : FileStore.hasFile directory fs key = false := by
  rw [FileStore.hasFile]
  cases hplace : fs.locateIn directory (FileStore.fileName key) with
  | error fault => rfl
  | ok place =>
    obtain ⟨_, _, home, henter, rfl⟩ := Files.locateIn_eq_ok.mp hplace
    rw [← Bool.not_eq_true, Files.isFileAt_of_slash rfl]
    rintro ⟨text, hheld⟩
    exact h home _ text henter hheld

/-- A store just opened over a directory without files mirrors its initial entries. -/
theorem mirrors_opened {directory : String} {fs : Files} (initial : Record)
    (h : fs.HoldsNoFiles directory) :
    Mirrors (FileStore.Usable directory fs) initial ⟨directory, initial, ∅⟩ fs where
  cache := rfl
  reach hkey := hkey
  backed _ := h.hasFile
  written hkey := by cases hkey

/-- Over a directory without files, a store in files answers every run of
operations on usable keys as a store in process does. -/
theorem answers_inFiles_eq_inProcess {directory : String} {initial : Record}
    {fs opened other : Files} {store : Store} {events : List Event} {operations : List Operation}
    (hopen : Store.create (some directory) initial fs = ⟨.ok store, events, opened⟩)
    (hempty : opened.HoldsNoFiles directory)
    (hkeys : ∀ operation ∈ operations, ∀ key, operation.key? = some key →
      FileStore.Usable directory opened key) :
    Operation.answers operations (store, opened) =
      Operation.answers operations (.inProcess initial, other) := by
  rw [Store.create_eq_ok hopen]
  exact (mirrors_opened initial hempty).answers operations other hkeys

/-- Entries are put in, replaced, read and taken out, and so is a seeded one. -/
def mixedRun : List Operation :=
  [.contains "seed", .add "a" .null, .retrieve "a", .delete "seed", .retrieve "seed",
    .add "a" (.bool true), .size, .flush, .contains "a", .retrieve "a", .isEmpty]

/-- One entry to begin with. -/
def seeded : Record := (∅ : Record).insert "seed" .null

/-- The files after the store's directory is made. -/
def madeMemory : Files := ⟨[(["memory"], .directory)]⟩

theorem mixedRun_inFiles_eq_inProcess :
    Store.create (some "memory") seeded Files.empty =
      ⟨.ok (.inFiles ⟨"memory", seeded, ∅⟩), [], madeMemory⟩ ∧
    madeMemory.HoldsNoFiles "memory" ∧
    Operation.answers mixedRun (.inFiles ⟨"memory", seeded, ∅⟩, madeMemory) =
      Operation.answers mixedRun (.inProcess seeded, Files.empty) ∧
    Operation.answers mixedRun (.inProcess seeded, Files.empty) =
      [.whether true, .done (.ok ()), .read (.ok .null), .done (.ok ()),
        .read (.error (.notFound "seed")), .done (.ok ()), .count 1, .done (.ok ()),
        .whether false, .read (.error (.notFound "a")), .whether true] := by
  have hopen : Store.create (some "memory") seeded Files.empty =
      ⟨.ok (.inFiles ⟨"memory", seeded, ∅⟩), [], madeMemory⟩ := rfl
  have hempty : madeMemory.HoldsNoFiles "memory" := by
    intro home name text henter
    have hhome : madeMemory.enter "memory" = .ok ["memory"] := rfl
    rw [hhome] at henter
    cases henter
    simp [madeMemory, Files.at?, Files.lookup_cons_eq_ite]
  refine ⟨hopen, hempty, answers_inFiles_eq_inProcess hopen hempty ?_, rfl⟩
  intro operation hmem key hkey
  have hused : key ∈ mixedRun.filterMap Operation.key? :=
    List.mem_filterMap.mpr ⟨operation, hmem, hkey⟩
  have hname : key = "seed" ∨ key = "a" := by
    simp only [mixedRun, Operation.key?, List.filterMap_cons, List.filterMap_nil,
      List.mem_cons, List.not_mem_nil] at hused
    grind
  rcases hname with rfl | rfl
  · exact ⟨⟨["memory", "seed.json"], false⟩, rfl, rfl, by decide⟩
  · exact ⟨⟨["memory", "a.json"], false⟩, rfl, rfl, by decide⟩

end Pipeline
