import Pipeline.Proofs.Durability

/-!
# Changes that fail

A change of a store in files has three parts, the cache, the written keys and the files, and
it can fail between them.  Whatever the calls on the files do (`FileCalls`), adding fails
before the cache and the written keys change.  Removing is different.  The entry leaves the
cache before its file is looked for, so a removal that fails has lost the entry, and a flush
that fails has lost all.  The files are as the failing call left them (`Refused`).

On a tree that refuses nothing, a store that has its directory to itself can remove the files
of the keys it has written (`Grounded`).  There a flush does not fail, and a removal loses
only an entry that was there at the opening and was never written (`failed_changes_leave`).
-/

namespace Pipeline

namespace FileStore

variable {directory key : String} {value : Value} {fs left : Files} {s : FileStore}
variable {error : MemoryError} {keys : List String} {calls : FileCalls}

/-! ## What a failure leaves -/

/-- Adding fails before it changes the store. -/
theorem addWith_of_error (h : (addWith calls key value (s, fs)).result = .error error) :
    ∃ left, addWith calls key value (s, fs) = ⟨.error error, [], (s, left)⟩ ∧
      Refused key fs (calls.writeIn fs s.directory (fileName key) (Json.render value))
        error left := by
  cases hvalid : validKey key with
  | false =>
    rw [addWith_of_invalid hvalid] at h ⊢
    cases h
    exact ⟨fs, rfl, .key hvalid⟩
  | true =>
    cases hcall : calls.writeIn fs s.directory (fileName key) (Json.render value) with
    | mk left written =>
      cases written with
      | ok _ =>
        rw [addWith_of_written hvalid hcall] at h
        cases h
      | error fault =>
        rw [addWith_of_unwritten hvalid hcall] at h ⊢
        cases h
        exact ⟨left, rfl, .call hvalid rfl⟩

/-- A removal that fails leaves the written keys, and has dropped the key from the cache. -/
theorem deleteWith_of_error (h : (deleteWith calls key (s, fs)).result = .error error) :
    ∃ left, deleteWith calls key (s, fs) =
        ⟨.error error, [], ({ s with cache := s.cache.erase key }, left)⟩ ∧
      Refused key fs (calls.removeIn fs s.directory (fileName key)) error left := by
  rw [deleteWith, Effect.bind_of_ok (update_apply _)] at h ⊢
  obtain ⟨left, hrun⟩ | ⟨_, left, hrun, hrefused⟩ :=
    removeFileWith_cases calls key { s with cache := s.cache.erase key } fs
  · rw [Effect.bind_of_ok hrun] at h
    cases h
  · rw [Effect.bind_of_error hrun] at h ⊢
    cases h
    exact ⟨left, rfl, hrefused⟩

/-- Where removing the files of some keys fails, those in front were removed. -/
theorem removeFilesWith_of_error (h : (removeFilesWith calls keys (s, fs)).result = .error error) :
    ∃ gone key later mid left, keys = gone ++ key :: later ∧
      removeFilesWith calls gone (s, fs) = ⟨.ok (), [], (s, mid)⟩ ∧
      removeFilesWith calls keys (s, fs) = ⟨.error error, [], (s, left)⟩ ∧
      Refused key mid (calls.removeIn mid s.directory (fileName key)) error left := by
  induction keys generalizing fs with
  | nil => cases h
  | cons first rest ih =>
    rw [removeFilesWith] at h ⊢
    obtain ⟨mid, hfirst⟩ | ⟨_, left, hfirst, hrefused⟩ := removeFileWith_cases calls first s fs
    · rw [Effect.bind_of_ok hfirst] at h ⊢
      obtain ⟨gone, key, later, next, left, hkeys, hgone, hrest, hrefused⟩ := ih h
      refine ⟨first :: gone, key, later, next, left, congrArg (first :: ·) hkeys, ?_, ?_, hrefused⟩
      · rw [removeFilesWith, Effect.bind_of_ok hfirst, hgone]
        rfl
      · rw [hrest]
        rfl
    · rw [Effect.bind_of_error hfirst] at h ⊢
      cases h
      exact ⟨[], first, rest, fs, left, rfl, rfl, rfl, hrefused⟩

/-- A flush that fails has emptied the cache and the written keys, and has removed the files
of the keys in front of the one it failed at. -/
theorem flushWith_of_error (h : (flushWith calls (s, fs)).result = .error error) :
    ∃ gone key later mid left, s.written.keys = gone ++ key :: later ∧
      removeFilesWith calls gone ({ s with cache := ∅, written := ∅ }, fs) =
        ⟨.ok (), [], ({ s with cache := ∅, written := ∅ }, mid)⟩ ∧
      flushWith calls (s, fs) =
        ⟨.error error, [], ({ s with cache := ∅, written := ∅ }, left)⟩ ∧
      Refused key mid (calls.removeIn mid s.directory (fileName key)) error left := by
  rw [flushWith_apply] at h ⊢
  exact removeFilesWith_of_error h

theorem erase_cache_eq_self_iff (s : FileStore) (key : String) :
    ({ s with cache := s.cache.erase key } : FileStore) = s ↔ s.cache.contains key = false := by
  rw [← Ascending.erase_eq_self_iff]
  constructor
  · exact congrArg FileStore.cache
  · intro hcache
    rw [hcache]

/-! ## Calls that are never refused -/

/-- Where a failing call changes no file, a change that fails changes none. -/
theorem Refused.files_eq {call : Files × Except FileFault Unit}
    (hcall : ∀ {left fault}, call = (left, .error fault) → left = fs)
    (h : Refused key fs call error left) : left = fs := by
  cases h with
  | key _ => rfl
  | call _ hfailed => exact hcall hfailed

/-- Adding fails before it changes anything. -/
theorem add_of_error (h : (add key value (s, fs)).result = .error error) :
    (add key value (s, fs)).state = (s, fs) := by
  obtain ⟨left, hrun, hrefused⟩ := addWith_of_error h
  rw [add, hrun, hrefused.files_eq FileCalls.writeIn_willing_error]

/-- A file that cannot be removed leaves all as it was. -/
theorem removeFile_of_error (h : (removeFile key (s, fs)).result = .error error) :
    removeFile key (s, fs) = ⟨.error error, [], (s, fs)⟩ := by
  rw [removeFile] at h ⊢
  obtain ⟨left, hrun⟩ | ⟨_, left, hrun, hrefused⟩ := removeFileWith_cases .willing key s fs
  · rw [hrun] at h
    cases h
  · rw [hrun] at h ⊢
    cases h
    rw [hrefused.files_eq FileCalls.removeIn_willing_error]

/-- A removal that fails leaves the files and the written keys, and has dropped the key from
the cache. -/
theorem delete_of_error (h : (delete key (s, fs)).result = .error error) :
    delete key (s, fs) = ⟨.error error, [], ({ s with cache := s.cache.erase key }, fs)⟩ := by
  obtain ⟨left, hrun, hrefused⟩ := deleteWith_of_error h
  rw [delete, hrun, hrefused.files_eq FileCalls.removeIn_willing_error]

theorem removeFile_of_no_directory (hvalid : validKey key = true)
    (hplace : fs.locateIn s.directory (fileName key) = .error .notFound) :
    removeFile key (s, fs) = ⟨.ok (), [], (s, fs)⟩ := by
  refine removeFileWith_of_removed hvalid (.inr ?_)
  rw [FileCalls.removeIn, hplace]

/-- A file was removed at its place, or there was no directory to remove it from. -/
theorem place_of_removeFile (h : (removeFile key (s, fs)).result = .ok ()) :
    (∃ home place, fs.enter s.directory = .ok home ∧ FileAt s.directory fs key place) ∨
      validKey key = true ∧ fs.locateIn s.directory (fileName key) = .error .notFound := by
  cases hhome : fs.enter s.directory with
  | ok home =>
    obtain ⟨place, hplace⟩ := fileAt_of_removeFile hhome h
    exact .inl ⟨home, place, rfl, hplace⟩
  | error fault =>
    rw [removeFile] at h
    cases hvalid : validKey key with
    | false =>
      rw [removeFileWith_of_invalid hvalid] at h
      cases h
    | true =>
      cases hplace : fs.locateIn s.directory (fileName key) with
      | ok place =>
        obtain ⟨_, _, home, henter, _⟩ := Files.locateIn_eq_ok.mp hplace
        rw [hhome] at henter
        cases henter
      | error fault =>
        by_cases hfault : fault = .notFound
        · subst hfault
          exact .inr ⟨rfl, rfl⟩
        · rw [removeFileWith_of_kept hvalid (by rw [FileCalls.removeIn, hplace]) hfault] at h
          cases h

/-! ## Stores that have their directory to themselves -/

/-- The directory is there, the file of every written key can be had, and what is cached was
there at the opening or is written. -/
structure Grounded (initial : Record) (s : FileStore) (fs : Files) : Prop where
  home : ∃ home, fs.enter s.directory = .ok home
  usable : ∀ {key}, s.written.contains key = true → Usable s.directory fs key
  cached : ∀ {key}, s.cache.contains key = true →
    initial.contains key = true ∨ s.written.contains key = true

namespace Grounded

variable {initial : Record}

theorem add (h : Grounded initial s fs) (hrun : (add key value (s, fs)).result = .ok ()) :
    ∃ s' fs', FileStore.add key value (s, fs) = ⟨.ok (), [], (s', fs')⟩ ∧
      Grounded initial s' fs' := by
  obtain ⟨place, hplace⟩ := fileAt_of_add hrun
  obtain ⟨home, hhome⟩ := h.home
  refine ⟨_, _, add_of_fileAt hplace, ?_⟩
  constructor
  · exact ⟨home, Files.enter_of_keeps (keepsDirectories_put hplace _) hhome⟩
  · intro k hk
    rw [Ascending.contains_insert, Bool.or_eq_true, decide_eq_true_eq] at hk
    rcases hk with rfl | hk
    · exact ⟨place, hplace.put hplace _⟩
    · obtain ⟨place', hplace'⟩ := h.usable hk
      exact ⟨place', hplace.put hplace' _⟩
  · intro k hk
    rw [Ascending.contains_insert, Bool.or_eq_true] at hk ⊢
    rcases hk with hk | hk
    · exact .inr (.inl hk)
    · exact (h.cached hk).imp_right .inr

theorem delete (h : Grounded initial s fs) (key : String) :
    Grounded initial (FileStore.delete key (s, fs)).state.1
      (FileStore.delete key (s, fs)).state.2 := by
  obtain ⟨home, hhome⟩ := h.home
  cases hresult : (FileStore.delete key (s, fs)).result with
  | error error =>
    rw [delete_of_error hresult]
    refine ⟨⟨home, hhome⟩, h.usable, fun {k} hk => ?_⟩
    rw [Ascending.contains_erase, Bool.and_eq_true] at hk
    exact h.cached hk.2
  | ok _ =>
    obtain ⟨place, hplace⟩ := fileAt_of_delete hhome hresult
    rw [delete_of_fileAt hplace]
    constructor
    · exact ⟨home, Files.enter_of_keeps (keepsDirectories_drop hplace) hhome⟩
    · intro k hk
      rw [Ascending.contains_erase, Bool.and_eq_true] at hk
      obtain ⟨place', hplace'⟩ := h.usable hk.2
      exact ⟨place', hplace.drop hplace'⟩
    · intro k hk
      rw [Ascending.contains_erase, Bool.and_eq_true] at hk ⊢
      exact (h.cached hk.2).imp_right fun hwritten => ⟨hk.1, hwritten⟩

/-- The files of written keys can all be removed. -/
theorem flush_ok (h : Grounded initial s fs) : (FileStore.flush (s, fs)).result = .ok () := by
  obtain ⟨fs', hrun, _⟩ := flush_of_usable fun key => h.usable
  rw [hrun]

theorem flush (h : Grounded initial s fs) :
    Grounded initial (FileStore.flush (s, fs)).state.1 (FileStore.flush (s, fs)).state.2 := by
  obtain ⟨home, hhome⟩ := h.home
  obtain ⟨fs', hrun, hkeeps, _⟩ := flush_of_result hhome h.flush_ok
  rw [hrun]
  refine ⟨⟨home, Files.enter_of_keeps hkeeps hhome⟩, fun hk => ?_, fun hk => ?_⟩
  · cases hk
  · cases hk

/-- A written key can be removed. -/
theorem delete_ok (h : Grounded initial s fs) (hwritten : s.written.contains key = true) :
    (FileStore.delete key (s, fs)).result = .ok () := by
  obtain ⟨place, hplace⟩ := h.usable hwritten
  rw [delete_of_fileAt hplace]

/-- One operation, whether it fails or not, leaves a store of that kind. -/
theorem perform (h : Grounded initial s fs) (operation : Operation) :
    ∃ s' fs', (operation.perform (.inFiles s, fs)).2 = (.inFiles s', fs') ∧
      Grounded initial s' fs' := by
  cases operation with
  | add key value =>
    cases hresult : (FileStore.add key value (s, fs)).result with
    | ok _ =>
      obtain ⟨s', fs', hrun, hafter⟩ := h.add hresult
      refine ⟨s', fs', ?_, hafter⟩
      rw [Operation.perform, Store.add, Store.act, hrun]
    | error error =>
      refine ⟨s, fs, ?_, h⟩
      simp only [Operation.perform, Store.add, Store.act, add_of_error hresult]
  | delete key => exact ⟨_, _, rfl, h.delete key⟩
  | flush => exact ⟨_, _, rfl, h.flush⟩
  | retrieve key =>
    refine ⟨s, fs, ?_, h⟩
    simp only [Operation.perform, Store.retrieve, Store.act, retrieve_state]
  | contains key => exact ⟨s, fs, rfl, h⟩
  | size => exact ⟨s, fs, rfl, h⟩
  | isEmpty => exact ⟨s, fs, rfl, h⟩

/-- So does a run of operations. -/
theorem leaves (h : Grounded initial s fs) (operations : List Operation) :
    ∃ s' fs', Operation.leaves operations (.inFiles s, fs) = (.inFiles s', fs') ∧
      Grounded initial s' fs' := by
  induction operations generalizing s fs with
  | nil => exact ⟨s, fs, rfl, h⟩
  | cons operation rest ih =>
    obtain ⟨s', fs', hperform, hafter⟩ := h.perform operation
    rw [Operation.leaves, hperform]
    exact ih hafter

theorem opened {opened : Files} {home : Names} (hhome : opened.enter directory = .ok home)
    (initial : Record) : Grounded initial ⟨directory, initial, ∅⟩ opened where
  home := ⟨home, hhome⟩
  usable hk := by cases hk
  cached hk := .inl hk

/-- A run of operations on an opened store leads to a store of that kind. -/
theorem reached {opened : Files} {store : Store} {events : List Event}
    {operations : List Operation}
    (hopen : Store.create (some directory) initial fs = ⟨.ok store, events, opened⟩)
    (hreach : Operation.leaves operations (store, opened) = (.inFiles s, left)) :
    Grounded initial s left := by
  have hmade := Files.made_of_makeDirectories (Store.makeDirectories_of_create hopen)
  obtain ⟨home, hhome⟩ := hmade.enter
  rw [Store.create_eq_ok hopen] at hreach
  obtain ⟨s', left', hleaves, hgrounded⟩ := (Grounded.opened hhome initial).leaves operations
  rw [hleaves] at hreach
  cases hreach
  exact hgrounded

/-- A key that cannot be removed was never written. -/
theorem unwritten_of_delete_error (h : Grounded initial s fs)
    (hfail : (FileStore.delete key (s, fs)).result = .error error) :
    s.written.contains key = false := by
  rw [← Bool.not_eq_true]
  intro hwritten
  rw [h.delete_ok hwritten] at hfail
  cases hfail

end Grounded

end FileStore

/-! ## The result -/

/-- What failing changes leave, whatever the calls on the files do.  Adding leaves the store as
it was.  A removal leaves the written keys, but has dropped the key from the cache: the store
is as it was just when the key was not cached.  A flush has emptied the store, and removed the
files of the keys in front of the one it failed at.  The files are otherwise as the failing
call left them.

On a tree that refuses nothing, and a store that a run of operations has led to, no failing
change touches the files, a flush does not fail, and what a removal loses was never written
and was there at the opening. -/
theorem failed_changes_leave (calls : FileCalls) (s : FileStore) (fs : Files) :
    (∀ key value error, (FileStore.addWith calls key value (s, fs)).result = .error error →
      ∃ left, (FileStore.addWith calls key value (s, fs)).state = (s, left) ∧
        FileStore.Refused key fs
          (calls.writeIn fs s.directory (FileStore.fileName key) (Json.render value))
          error left) ∧
    (∀ key error, (FileStore.deleteWith calls key (s, fs)).result = .error error →
      ∃ left,
        (FileStore.deleteWith calls key (s, fs)).state =
          ({ s with cache := s.cache.erase key }, left) ∧
        ((FileStore.deleteWith calls key (s, fs)).state.1 = s ↔ s.cache.contains key = false) ∧
        FileStore.Refused key fs (calls.removeIn fs s.directory (FileStore.fileName key))
          error left) ∧
    (∀ error, (FileStore.flushWith calls (s, fs)).result = .error error →
      ∃ gone key later mid left, s.written.keys = gone ++ key :: later ∧
        FileStore.removeFilesWith calls gone ({ s with cache := ∅, written := ∅ }, fs) =
          ⟨.ok (), [], ({ s with cache := ∅, written := ∅ }, mid)⟩ ∧
        (FileStore.flushWith calls (s, fs)).state = ({ s with cache := ∅, written := ∅ }, left) ∧
        FileStore.Refused key mid (calls.removeIn mid s.directory (FileStore.fileName key))
          error left) ∧
    ∀ directory initial start opened store events operations,
      Store.create (some directory) initial start = ⟨.ok store, events, opened⟩ →
      Operation.leaves operations (store, opened) = (.inFiles s, fs) →
      (∀ key value error, (FileStore.add key value (s, fs)).result = .error error →
        (FileStore.add key value (s, fs)).state = (s, fs)) ∧
      (∀ key error, (FileStore.delete key (s, fs)).result = .error error →
        (FileStore.delete key (s, fs)).state = ({ s with cache := s.cache.erase key }, fs) ∧
        ((FileStore.delete key (s, fs)).state = (s, fs) ↔ s.cache.contains key = false) ∧
        s.written.contains key = false ∧
        (s.cache.contains key = true → initial.contains key = true)) ∧
      (FileStore.flush (s, fs)).result = .ok () := by
  refine ⟨?_, ?_, ?_, ?_⟩
  · intro key value error hfail
    obtain ⟨left, hrun, hrefused⟩ := FileStore.addWith_of_error hfail
    exact ⟨left, congrArg Run.state hrun, hrefused⟩
  · intro key error hfail
    obtain ⟨left, hrun, hrefused⟩ := FileStore.deleteWith_of_error hfail
    have hstate := congrArg Run.state hrun
    refine ⟨left, hstate, ?_, hrefused⟩
    rw [hstate]
    exact FileStore.erase_cache_eq_self_iff s key
  · intro error hfail
    obtain ⟨gone, key, later, mid, left, hkeys, hgone, hrun, hrefused⟩ :=
      FileStore.flushWith_of_error hfail
    exact ⟨gone, key, later, mid, left, hkeys, hgone, congrArg Run.state hrun, hrefused⟩
  · intro directory initial start opened store events operations hopen hreach
    have hgrounded := FileStore.Grounded.reached hopen hreach
    refine ⟨fun key value error hfail => FileStore.add_of_error hfail, ?_, hgrounded.flush_ok⟩
    intro key error hfail
    have hunwritten := hgrounded.unwritten_of_delete_error hfail
    have hstate : (FileStore.delete key (s, fs)).state =
        ({ s with cache := s.cache.erase key }, fs) := by rw [FileStore.delete_of_error hfail]
    refine ⟨hstate, ?_, hunwritten, fun hcached => ?_⟩
    · rw [hstate, Prod.mk.injEq, and_iff_left rfl]
      exact FileStore.erase_cache_eq_self_iff s key
    · rcases hgrounded.cached hcached with hinitial | hwritten
      · exact hinitial
      · rw [hunwritten] at hwritten
        cases hwritten

/-- An entry whose key cannot name a file. -/
def slashedSeed : Record := (∅ : Record).insert "a/b" (.bool true)

/-- A store just opened with it. -/
def slashedOpened : FileStore := ⟨"memory", slashedSeed, ∅⟩

/-- The same store when another entry is written. -/
def slashedStore : FileStore :=
  ⟨"memory", slashedSeed.insert "kept" .null, (∅ : Dict Unit).insert "kept" ()⟩

/-- The files then. -/
def keptMemory : Files := ⟨[(["memory", "kept.json"], .file "null"), (["memory"], .directory)]⟩

theorem failed_delete_drops_seed :
    Store.create (some "memory") slashedSeed Files.empty =
      ⟨.ok (.inFiles slashedOpened), [], madeMemory⟩ ∧
    (FileStore.delete "a/b" (slashedOpened, madeMemory)).result = .error (.invalidKey "a/b") ∧
    (FileStore.retrieve "a/b" (slashedOpened, madeMemory)).result = .ok (.bool true) ∧
    (FileStore.retrieve "a/b"
      (FileStore.delete "a/b" (slashedOpened, madeMemory)).state).result =
        .error (.invalidKey "a/b") ∧
    (FileStore.delete "a/b" (slashedOpened, madeMemory)).state ≠ (slashedOpened, madeMemory) := by
  refine ⟨rfl, rfl, rfl, rfl, fun h => ?_⟩
  have hsize := congrArg (fun after => after.1.size) h
  exact absurd hsize (by decide)

/-- A file system with no space left that lets no file be removed.  A file that it could not
write is left empty. -/
def fullFiles : FileCalls where
  write fs place _ := (fs.put place.names (.file ""), .error .storageFull)
  remove fs _ := (fs, .error .permissionDenied)

theorem slashedStore_failed_changes :
    (∃ left, FileStore.addWith fullFiles "kept" (.bool true) (slashedStore, keptMemory) =
        ⟨.error (.file "kept" .storageFull), [], (slashedStore, left)⟩ ∧
      left.at? ["memory", "kept.json"] = some (.file "")) ∧
    (FileStore.deleteWith fullFiles "kept" (slashedStore, keptMemory)).result =
      .error (.file "kept" .permissionDenied) ∧
    (∃ left, (FileStore.deleteWith fullFiles "kept" (slashedStore, keptMemory)).state =
        ({ slashedStore with cache := slashedStore.cache.erase "kept" }, left)) ∧
    (FileStore.deleteWith fullFiles "kept" (slashedStore, keptMemory)).state.1 ≠ slashedStore ∧
    (FileStore.flushWith fullFiles (slashedStore, keptMemory)).result =
      .error (.file "kept" .permissionDenied) ∧
    (∃ left, (FileStore.flushWith fullFiles (slashedStore, keptMemory)).state =
        (⟨"memory", ∅, ∅⟩, left)) ∧
    Store.create (some "memory") slashedSeed Files.empty =
      ⟨.ok (.inFiles slashedOpened), [], madeMemory⟩ ∧
    Operation.leaves [.add "kept" .null, .delete "other"]
      (.inFiles slashedOpened, madeMemory) = (.inFiles slashedStore, keptMemory) ∧
    (FileStore.add "a/b" .null (slashedStore, keptMemory)).result = .error (.invalidKey "a/b") ∧
    (FileStore.add "a/b" .null (slashedStore, keptMemory)).state = (slashedStore, keptMemory) ∧
    (FileStore.delete "a/b" (slashedStore, keptMemory)).result = .error (.invalidKey "a/b") ∧
    (FileStore.delete "a/b" (slashedStore, keptMemory)).state =
      ({ slashedStore with cache := slashedStore.cache.erase "a/b" }, keptMemory) ∧
    slashedStore.written.contains "a/b" = false ∧
    (FileStore.flush (slashedStore, keptMemory)).result = .ok () := by
  obtain ⟨haddAny, hdeleteAny, hflushAny, hwilling⟩ :=
    failed_changes_leave fullFiles slashedStore keptMemory
  obtain ⟨leftAdd, haddState, haddRefused⟩ :=
    haddAny "kept" (.bool true) (.file "kept" .storageFull) rfl
  obtain ⟨leftDelete, hdeleteState, hsame, _⟩ :=
    hdeleteAny "kept" (.file "kept" .permissionDenied) rfl
  obtain ⟨_, _, _, _, leftFlush, _, _, hflushState, _⟩ :=
    hflushAny (.file "kept" .permissionDenied) rfl
  have hopen : Store.create (some "memory") slashedSeed Files.empty =
      ⟨.ok (.inFiles slashedOpened), [], madeMemory⟩ := rfl
  have hreach : Operation.leaves [.add "kept" .null, .delete "other"]
      (.inFiles slashedOpened, madeMemory) = (.inFiles slashedStore, keptMemory) := rfl
  obtain ⟨hadd, hdelete, hflush⟩ := hwilling _ _ _ _ _ _ _ hopen hreach
  obtain ⟨hstate, _, hunwritten, _⟩ := hdelete "a/b" (.invalidKey "a/b") rfl
  refine ⟨?_, rfl, ⟨leftDelete, hdeleteState⟩, ?_, rfl, ⟨leftFlush, hflushState⟩, hopen, hreach,
    rfl, hadd "a/b" .null _ rfl, rfl, hstate, hunwritten, hflush⟩
  · cases haddRefused with
    | call _ hcall =>
      cases hcall
      exact ⟨_, Run.eq_of_result rfl, rfl⟩
  · rw [ne_eq, hsame]
    decide

end Pipeline
