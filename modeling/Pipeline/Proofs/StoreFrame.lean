import Pipeline.Proofs.EffectLogic
import Pipeline.Proofs.FailedChanges

/-!
# What a store leaves alone

A store in files shares its directory with others.  Each of its operations changes the tree
at the files of some keys and nowhere else (`FileStore.Grounded.at?_perform`): adding and
removing at the file of their key, a flush at the files of the keys that the store has
written, and reading nowhere.

`FileStore.Confined` is what a run keeps of this.  A written key was added in the run, so a
file that no operation was asked to write or to remove is there after the run as it was
before it.  A file that the store has not written is safe from a flush, but not from a
removal, which never asks who wrote the file (`foreign_files_survive`,
`delete_takes_foreign_file`).
-/

namespace Pipeline

/-! ## Opening -/

namespace Files

variable {fs fs' : Files} {path : String} {above : Names}

/-- Every entry of the first tree is one in the second. -/
def Grows (fs fs' : Files) : Prop :=
  ∀ names entry, fs.at? names = some entry → fs'.at? names = some entry

theorem Grows.refl (fs : Files) : Grows fs fs := fun _ _ h => h

theorem Grows.trans {fs'' : Files} (h : Grows fs fs') (h' : Grows fs' fs'') : Grows fs fs'' :=
  fun names entry hheld => h' names entry (h names entry hheld)

/-- A directory is made where nothing was. -/
theorem makeDirectory_grows (h : fs.makeDirectory path = .ok fs') : Grows fs fs' := by
  rw [makeDirectory] at h
  cases hplace : fs.locate path with
  | error fault => rw [hplace] at h; cases h
  | ok place =>
    rw [hplace] at h
    simp only [bind, Except.bind] at h
    split at h
    next => cases h
    next hfree =>
      cases h
      intro names entry hheld
      have hroot : place.names ≠ [] := by
        intro hnil
        rw [hnil] at hfree
        cases hfree
      have hother : names ≠ place.names := by
        intro heq
        rw [heq, hfree] at hheld
        cases hheld
      rw [at?_put hroot, if_neg hother]
      exact hheld

theorem ensureDirectory_grows (fs : Files) (path : String) :
    Grows fs (fs.ensureDirectory path).1 := by
  rw [ensureDirectory]
  split
  next hmake => exact makeDirectory_grows hmake
  next => exact Grows.refl fs

theorem makeNames_grows (fs : Files) (above : Names) (path : String) :
    Grows fs (fs.makeNames above path).1 := by
  induction above generalizing path with
  | nil => exact Grows.refl fs
  | cons name above ih =>
    have habove := ih ("/".intercalate above.reverse)
    rw [makeNames]
    split
    next =>
      split
      next fs' hmade =>
        rw [hmade] at habove
        exact habove.trans (ensureDirectory_grows fs' path)
      next fs' fault hmade =>
        rw [hmade] at habove
        exact habove
    next => exact ensureDirectory_grows fs path

/-- Making directories takes nothing away. -/
theorem makeDirectories_grows (fs : Files) (path : String) :
    Grows fs (fs.makeDirectories path).1 :=
  makeNames_grows fs _ path

end Files

/-! ## Operations -/

namespace FileStore

variable {directory key : String} {value : Value} {fs : Files} {s : FileStore}
variable {place : Place} {home names : Names} {keys : List String} {initial : Record}

/-- The file of a key is right below the directory. -/
theorem FileAt.names_eq (h : FileAt directory fs key place)
    (hhome : fs.enter directory = .ok home) : place.names = home ++ [fileName key] := by
  obtain ⟨_, _, home', hhome', rfl⟩ := Files.locateIn_eq_ok.mp h.path
  rw [hhome] at hhome'
  cases hhome'
  rfl

/-- Writing a key's file changes no other path. -/
theorem at?_put_fileAt (h : FileAt directory fs key place) (hhome : fs.enter directory = .ok home)
    (text : String) (names : Names) :
    (fs.put place.names (.file text)).at? names =
      if names = home ++ [fileName key] then some (.file text) else fs.at? names := by
  rw [Files.at?_put (Files.locateIn_ne_nil h.path), h.names_eq hhome]

/-- Nor does removing it. -/
theorem at?_drop_fileAt (h : FileAt directory fs key place)
    (hhome : fs.enter directory = .ok home) (names : Names) :
    (fs.drop place.names).at? names =
      if names = home ++ [fileName key] then none else fs.at? names := by
  rw [Files.at?_drop (Files.locateIn_ne_nil h.path), h.names_eq hhome]

/-- A removal puts nothing into the tree. -/
theorem removeFile_shrinks (key : String) (opened : Files) :
    Effect.Keeps (fun p => Files.Grows p.2 opened) (removeFile key) := by
  rintro ⟨s, fs⟩ h
  cases hresult : (removeFile key (s, fs)).result with
  | error error =>
    rw [removeFile_of_error hresult]
    exact h
  | ok _ =>
    obtain ⟨_, _, hhome, hplace⟩ | ⟨hvalid, hplace⟩ := place_of_removeFile hresult
    · rw [removeFile_of_fileAt hplace]
      intro names entry hheld
      rw [at?_drop_fileAt hplace hhome] at hheld
      split at hheld
      · cases hheld
      · exact h names entry hheld
    · rw [removeFile_of_no_directory hvalid hplace]
      exact h

theorem removeFiles_shrinks (keys : List String) (opened : Files) :
    Effect.Keeps (fun p => Files.Grows p.2 opened) (removeFiles keys) := by
  induction keys with
  | nil => exact Effect.Keeps.pure _
  | cons first rest ih => exact (removeFile_shrinks first opened).bind fun _ => ih

theorem update_shrinks (f : FileStore → FileStore) (opened : Files) :
    Effect.Keeps (fun p => Files.Grows p.2 opened) (update f) :=
  fun _ h => h

theorem delete_shrinks (key : String) (opened : Files) :
    Effect.Keeps (fun p => Files.Grows p.2 opened) (delete key) :=
  (update_shrinks _ opened).bind fun _ =>
    (removeFile_shrinks key opened).bind fun _ => update_shrinks _ opened

/-- A flush brings no file about. -/
theorem flush_shrinks (opened : Files) :
    Effect.Keeps (fun p => Files.Grows p.2 opened) flush :=
  Effect.Keeps.get.bind fun _ =>
    (update_shrinks _ opened).bind fun _ => removeFiles_shrinks _ opened

/-- Removing the files of usable keys leaves all other paths as they were. -/
theorem at?_removeFiles (hhome : fs.enter s.directory = .ok home)
    (h : ∀ key ∈ keys, Usable s.directory fs key)
    (hother : ∀ key ∈ keys, names ≠ home ++ [fileName key]) :
    (removeFiles keys (s, fs)).state.2.at? names = fs.at? names := by
  induction keys generalizing fs with
  | nil => rfl
  | cons first rest ih =>
    obtain ⟨place, hfirst⟩ := h first (.head _)
    have hrest : ∀ key ∈ rest, Usable s.directory (fs.drop place.names) key := by
      intro key hmem
      obtain ⟨place', hkey⟩ := h key (.tail _ hmem)
      exact ⟨place', hfirst.drop hkey⟩
    have hentered := Files.enter_of_keeps (keepsDirectories_drop hfirst) hhome
    rw [removeFiles_cons, Effect.bind_of_ok (removeFile_of_fileAt hfirst), Run.after_state,
      ih hentered hrest fun key hmem => hother key (.tail _ hmem), at?_drop_fileAt hfirst hhome,
      if_neg (hother first (.head _))]

/-- Flushing leaves the paths that are no file of a written key as they were. -/
theorem flush_frame (hhome : fs.enter s.directory = .ok home)
    (h : ∀ key, s.written.contains key = true → Usable s.directory fs key) :
    ∃ fs', flush (s, fs) = ⟨.ok (), [], ({ s with cache := ∅, written := ∅ }, fs')⟩ ∧
      Files.KeepsDirectories fs fs' ∧
      ∀ names, (∀ key, s.written.contains key = true → names ≠ home ++ [fileName key]) →
        fs'.at? names = fs.at? names := by
  obtain ⟨_, hdone, _⟩ := flush_of_usable h
  obtain ⟨fs', hrun, hkeeps, _⟩ := flush_of_result hhome (congrArg Run.result hdone)
  refine ⟨fs', hrun, hkeeps, fun names hother => ?_⟩
  have hframe : (removeFiles s.written.keys ({ s with cache := ∅, written := ∅ }, fs)).state.2.at?
      names = fs.at? names :=
    at?_removeFiles hhome (fun key hmem => h key ((Ascending.mem_keys s.written key).mp hmem))
      (fun key hmem => hother key ((Ascending.mem_keys s.written key).mp hmem))
  rw [flush_apply] at hrun
  rw [hrun] at hframe
  exact hframe

/-! ## One operation -/

/-- What an operation that got an answer did to the store and to the tree: it wrote the file
of a key, took one away, took away those of the written keys, or left the files and the
written keys as they were.  The store's directory is at `home`. -/
inductive FileStep (home : Names) (s : FileStore) (fs : Files) :
    Operation → Answer → FileStore → Files → Prop
  | wrote {key : String} {value : Value} {fs' : Files} :
      (∀ names, fs'.at? names =
        if names = home ++ [fileName key] then some (.file (Json.render value))
        else fs.at? names) →
      FileStep home s fs (.add key value) (.done (.ok ()))
        { s with written := s.written.insert key (), cache := s.cache.insert key value } fs'
  | removed {key : String} {fs' : Files} :
      (∀ names, fs'.at? names =
        if names = home ++ [fileName key] then none else fs.at? names) →
      FileStep home s fs (.delete key) (.done (.ok ()))
        { s with cache := s.cache.erase key, written := s.written.erase key } fs'
  | flushed {fs' : Files} :
      (∀ names, (∀ key, s.written.contains key = true → names ≠ home ++ [fileName key]) →
        fs'.at? names = fs.at? names) →
      FileStep home s fs .flush (.done (.ok ())) { s with cache := ∅, written := ∅ } fs'
  | left {operation : Operation} {answer : Answer} {cache : Record} :
      FileStep home s fs operation answer { s with cache := cache } fs

/-- Every operation is one of these steps, and keeps the directories. -/
theorem Grounded.fileStep (h : Grounded initial s fs) (hhome : fs.enter s.directory = .ok home)
    (operation : Operation) :
    ∃ s' fs', (operation.perform (.inFiles s, fs)).2 = (.inFiles s', fs') ∧
      Grounded initial s' fs' ∧ Files.KeepsDirectories fs fs' ∧
      FileStep home s fs operation (operation.perform (.inFiles s, fs)).1 s' fs' := by
  obtain ⟨s', fs', hperform, hafter⟩ := h.perform operation
  refine ⟨s', fs', hperform, hafter, ?_⟩
  have hsame : Files.KeepsDirectories fs fs := fun _ hdir => hdir
  cases operation with
  | add key value =>
    rw [Operation.perform, Store.add, Store.act] at hperform ⊢
    cases hresult : (FileStore.add key value (s, fs)).result with
    | error error =>
      rw [add_of_error hresult] at hperform
      cases hperform
      exact ⟨hsame, .left⟩
    | ok _ =>
      obtain ⟨place, hplace⟩ := fileAt_of_add hresult
      rw [add_of_fileAt hplace] at hperform
      cases hperform
      exact ⟨keepsDirectories_put hplace _, .wrote (at?_put_fileAt hplace hhome _)⟩
  | delete key =>
    rw [Operation.perform, Store.delete, Store.act] at hperform ⊢
    cases hresult : (FileStore.delete key (s, fs)).result with
    | error error =>
      rw [delete_of_error hresult] at hperform
      cases hperform
      exact ⟨hsame, .left⟩
    | ok _ =>
      obtain ⟨place, hplace⟩ := fileAt_of_delete hhome hresult
      rw [delete_of_fileAt hplace] at hperform
      cases hperform
      exact ⟨keepsDirectories_drop hplace, .removed (at?_drop_fileAt hplace hhome)⟩
  | flush =>
    obtain ⟨fs'', hrun, hkeeps, hframe⟩ := flush_frame hhome fun _ => h.usable
    rw [Operation.perform, Store.flush, Store.act, hrun] at hperform
    rw [Operation.perform, Store.flush, Store.act, hrun]
    cases hperform
    exact ⟨hkeeps, .flushed hframe⟩
  | retrieve key =>
    simp only [Operation.perform, Store.retrieve, Store.act, retrieve_state] at hperform
    cases hperform
    exact ⟨hsame, .left⟩
  | contains key => cases hperform; exact ⟨hsame, .left⟩
  | size => cases hperform; exact ⟨hsame, .left⟩
  | isEmpty => cases hperform; exact ⟨hsame, .left⟩

namespace FileStep

variable {operation : Operation} {answer : Answer} {s' : FileStore} {fs' : Files}

theorem directory_eq (h : FileStep home s fs operation answer s' fs') :
    s'.directory = s.directory := by
  cases h <;> rfl

/-- A written key was written before, or the operation wrote it. -/
theorem written (h : FileStep home s fs operation answer s' fs')
    (hkey : s'.written.contains key = true) :
    s.written.contains key = true ∨
      (∃ value, operation = .add key value) ∧ answer = .done (.ok ()) := by
  cases h with
  | @wrote other value _ _ =>
    rw [Ascending.contains_insert, Bool.or_eq_true, decide_eq_true_eq] at hkey
    rcases hkey with rfl | hkey
    · exact .inr ⟨⟨value, rfl⟩, rfl⟩
    · exact .inl hkey
  | removed _ =>
    rw [Ascending.contains_erase, Bool.and_eq_true] at hkey
    exact .inl hkey.2
  | flushed _ => cases hkey
  | left => exact .inl hkey

/-- A path holds what it held, unless it is the file of a key that was added, or that was
deleted, or that the store had written before a flush. -/
theorem frame (h : FileStep home s fs operation answer s' fs') (names : Names) :
    fs'.at? names = fs.at? names ∨ ∃ key, names = home ++ [fileName key] ∧
      ((∃ value, operation = .add key value) ∧ answer = .done (.ok ()) ∨
        operation = .delete key ∧ answer = .done (.ok ()) ∨
        operation = .flush ∧ s.written.contains key = true) := by
  cases h with
  | @wrote key value _ hfiles =>
    rw [hfiles]
    split
    next hnames => exact .inr ⟨key, hnames, .inl ⟨⟨value, rfl⟩, rfl⟩⟩
    next => exact .inl rfl
  | @removed key _ hfiles =>
    rw [hfiles]
    split
    next hnames => exact .inr ⟨key, hnames, .inr (.inl ⟨rfl, rfl⟩)⟩
    next => exact .inl rfl
  | flushed hfiles =>
    by_cases hfile : ∃ key, s.written.contains key = true ∧ names = home ++ [fileName key]
    · obtain ⟨key, hwritten, hnames⟩ := hfile
      exact .inr ⟨key, hnames, .inr (.inr ⟨rfl, hwritten⟩)⟩
    · exact .inl (hfiles names fun key hwritten hnames => hfile ⟨key, hwritten, hnames⟩)
  | left => exact .inl rfl

/-- Only deleting and flushing take a file away, and a flush only the file of a written key. -/
theorem of_gone (h : FileStep home s fs operation answer s' fs') {text : String}
    (hheld : fs.at? names = some (.file text))
    (hgone : ∀ text', fs'.at? names ≠ some (.file text')) :
    ∃ key, names = home ++ [fileName key] ∧
      (operation = .delete key ∧ answer = .done (.ok ()) ∨
        operation = .flush ∧ s.written.contains key = true) := by
  rcases h.frame names with hsame | ⟨key, hnames, hadd | htaken⟩
  · exact absurd (hsame.trans hheld) (hgone text)
  · obtain ⟨⟨value, rfl⟩, rfl⟩ := hadd
    cases h with
    | wrote hfiles => exact absurd ((hfiles names).trans (if_pos hnames)) (hgone _)
    | left => exact absurd hheld (hgone text)
  · exact ⟨key, hnames, htaken⟩

end FileStep

end FileStore

/-! ## Runs -/

namespace Operation

/-- The operations of a run, each with its answer. -/
def history (operations : List Operation) (s : Store × Files) : List (Operation × Answer) :=
  operations.zip (answers operations s)

/-- A value was put in under the key. -/
def Added (key : String) (past : List (Operation × Answer)) : Prop :=
  ∃ value, (.add key value, .done (.ok ())) ∈ past

/-- The key was taken out. -/
def Deleted (key : String) (past : List (Operation × Answer)) : Prop :=
  (.delete key, .done (.ok ())) ∈ past

theorem Added.append {key : String} {past : List (Operation × Answer)} (h : Added key past)
    (later : List (Operation × Answer)) : Added key (past ++ later) := by
  obtain ⟨value, hmem⟩ := h
  exact ⟨value, List.mem_append_left _ hmem⟩

end Operation

/-- After the operations that are listed with their answers, the directory is where it was,
what is written was added, and a path that holds something else than at the opening is the
file of a key that was added or deleted. -/
structure FileStore.Confined (home : Names) (opened : Files) (past : List (Operation × Answer))
    (s : FileStore) (fs : Files) : Prop where
  entered : fs.enter s.directory = .ok home
  written : ∀ {key}, s.written.contains key = true → Operation.Added key past
  frame : ∀ names, fs.at? names = opened.at? names ∨
    ∃ key, names = home ++ [FileStore.fileName key] ∧
      (Operation.Added key past ∨ Operation.Deleted key past)

namespace FileStore.Confined

variable {home : Names} {opened fs fs' : Files} {past : List (Operation × Answer)}
variable {s s' : FileStore} {operation : Operation} {answer : Answer} {initial : Record}

/-- One operation confines its changes to the files of keys. -/
theorem step (h : Confined home opened past s fs) (hkeeps : Files.KeepsDirectories fs fs')
    (hstep : FileStep home s fs operation answer s' fs') :
    Confined home opened (past ++ [(operation, answer)]) s' fs' := by
  constructor
  · rw [hstep.directory_eq]
    exact Files.enter_of_keeps hkeeps h.entered
  · intro key hkey
    rcases hstep.written hkey with hbefore | ⟨⟨value, rfl⟩, rfl⟩
    · exact (h.written hbefore).append _
    · exact ⟨value, by simp⟩
  · intro names
    rcases hstep.frame names with hsame | ⟨key, hnames, hnow⟩
    · rw [hsame]
      rcases h.frame names with hopened | ⟨key, hnames, hadded | hdeleted⟩
      · exact .inl hopened
      · exact .inr ⟨key, hnames, .inl (hadded.append _)⟩
      · exact .inr ⟨key, hnames, .inr (List.mem_append_left _ hdeleted)⟩
    · refine .inr ⟨key, hnames, ?_⟩
      rcases hnow with ⟨⟨value, rfl⟩, rfl⟩ | ⟨rfl, rfl⟩ | ⟨_, hwritten⟩
      · exact .inl ⟨value, by simp⟩
      · exact .inr (List.mem_append_right _ (.head _))
      · exact .inl ((h.written hwritten).append _)

/-- So does a run of operations. -/
theorem run (h : Confined home opened past s fs) (hgrounded : Grounded initial s fs)
    (operations : List Operation) :
    ∃ s' fs', Operation.leaves operations (.inFiles s, fs) = (.inFiles s', fs') ∧
      Grounded initial s' fs' ∧
      Confined home opened (past ++ Operation.history operations (.inFiles s, fs)) s' fs' := by
  induction operations generalizing past s fs with
  | nil => exact ⟨s, fs, rfl, hgrounded, by rw [Operation.history]; simpa using h⟩
  | cons operation rest ih =>
    obtain ⟨s', fs', hperform, hgrounded', hkeeps, hstep⟩ :=
      hgrounded.fileStep h.entered operation
    obtain ⟨s'', fs'', hleaves, hlast, hconfined⟩ := ih (h.step hkeeps hstep) hgrounded'
    refine ⟨s'', fs'', ?_, hlast, ?_⟩
    · rw [Operation.leaves, hperform, hleaves]
    · rw [Operation.history, Operation.answers, hperform, List.zip_cons_cons, List.append_cons]
      exact hconfined

theorem start {path : String} (hhome : opened.enter path = .ok home) (initial : Record) :
    Confined home opened [] ⟨path, initial, ∅⟩ opened where
  entered := hhome
  written hkey := by cases hkey
  frame _ := .inl rfl

end FileStore.Confined

/-! ## The result -/

/-- A store is opened on a directory, which takes nothing away, and operations are done on
it, of any keys and with any answers.  A path then holds what it held at the opening, unless
it is the file of a key that was added or deleted in the run.  An operation that takes a file
away is a flush, and then the file is that of a key that was added in the run, or it deletes
the key whose file it is. -/
theorem foreign_files_survive {directory : String} {initial : Record} {fs opened : Files}
    {store : Store} {events : List Event}
    (hopen : Store.create (some directory) initial fs = ⟨.ok store, events, opened⟩) :
    ∃ home, opened.enter directory = .ok home ∧
      (∀ names entry, fs.at? names = some entry → opened.at? names = some entry) ∧
      (∀ operations names,
        (Operation.leaves operations (store, opened)).2.at? names = opened.at? names ∨
        ∃ key, names = home ++ [FileStore.fileName key] ∧
          (Operation.Added key (Operation.history operations (store, opened)) ∨
            Operation.Deleted key (Operation.history operations (store, opened)))) ∧
      ∀ (operations : List Operation) (operation : Operation) (s : Store × Files) names text,
        Operation.leaves operations (store, opened) = s →
        s.2.at? names = some (.file text) →
        (∀ text', (operation.perform s).2.2.at? names ≠ some (.file text')) →
        ∃ key, names = home ++ [FileStore.fileName key] ∧
          (operation = .delete key ∧ (operation.perform s).1 = .done (.ok ()) ∨
            operation = .flush ∧
              Operation.Added key (Operation.history operations (store, opened))) := by
  have hmake := Store.makeDirectories_of_create hopen
  obtain ⟨home, hhome⟩ := (Files.made_of_makeDirectories hmake).enter
  have hgrows := Files.makeDirectories_grows fs directory
  rw [hmake] at hgrows
  have hrun (operations : List Operation) :=
    (FileStore.Confined.start hhome initial).run (.opened hhome initial) operations
  rw [← Store.create_eq_ok hopen] at hrun
  refine ⟨home, hhome, hgrows, ?_, ?_⟩
  · intro operations names
    obtain ⟨s, left, hleaves, _, hconfined⟩ := hrun operations
    rw [hleaves]
    exact hconfined.frame names
  · intro operations operation _ names text hreach hheld hgone
    obtain ⟨s, left, hleaves, hgrounded, hconfined⟩ := hrun operations
    rw [hleaves] at hreach
    subst hreach
    obtain ⟨s', left', hperform, _, _, hstep⟩ :=
      hgrounded.fileStep hconfined.entered operation
    rw [hperform] at hgone
    obtain ⟨key, hnames, hdelete | ⟨hflush, hwritten⟩⟩ := hstep.of_gone hheld hgone
    · exact ⟨key, hnames, .inl hdelete⟩
    · exact ⟨key, hnames, .inr ⟨hflush, hconfined.written hwritten⟩⟩

/-- An own file is written and flushed, beside a foreign one that is read. -/
def guestRun : List Operation :=
  [.add "mine" .null, .retrieve "old", .delete "../old", .flush, .contains "old"]

theorem guestRun_foreign_files_survive :
    Store.create (some "memory") seeded foreignFiles =
      ⟨.ok (.inFiles ⟨"memory", seeded, ∅⟩), [], foreignFiles⟩ ∧
    foreignFiles.at? ["memory", "old.json"] = some (.file "true") ∧
    (Operation.leaves guestRun (.inFiles ⟨"memory", seeded, ∅⟩, foreignFiles)).2.at?
      ["memory", "old.json"] = some (.file "true") := by
  have hopen : Store.create (some "memory") seeded foreignFiles =
      ⟨.ok (.inFiles ⟨"memory", seeded, ∅⟩), [], foreignFiles⟩ := rfl
  have hheld : foreignFiles.at? ["memory", "old.json"] = some (.file "true") := rfl
  have hmemory : foreignFiles.enter "memory" = .ok ["memory"] := rfl
  have hhistory : Operation.history guestRun (.inFiles ⟨"memory", seeded, ∅⟩, foreignFiles) =
      [(.add "mine" .null, .done (.ok ())), (.retrieve "old", .read (.ok (.bool true))),
        (.delete "../old", .done (.error (.invalidKey "../old"))), (.flush, .done (.ok ())),
        (.contains "old", .whether true)] := rfl
  refine ⟨hopen, hheld, ?_⟩
  obtain ⟨home, hhome, _, hframe, _⟩ := foreign_files_survive hopen
  rw [hmemory] at hhome
  cases hhome
  rcases hframe guestRun ["memory", "old.json"] with hsame | ⟨key, hnames, htouched⟩
  · rw [hsame, hheld]
  · -- The run neither added nor deleted the key of that file.
    exfalso
    have hname : "old.json" = FileStore.fileName key := by simpa using hnames
    have hsame : FileStore.fileName "old" = FileStore.fileName key := hname
    have hkey : key = "old" := (FileStore.fileName_inj hsame).symm
    rw [hhistory, hkey] at htouched
    simp [Operation.Added, Operation.Deleted] at htouched

/-- A file that the store has not written is gone after a removal of its key. -/
theorem delete_takes_foreign_file :
    Store.create (some "memory") ∅ foreignFiles =
      ⟨.ok (.inFiles ⟨"memory", ∅, ∅⟩), [], foreignFiles⟩ ∧
    Operation.history [.delete "gone"] (.inFiles ⟨"memory", ∅, ∅⟩, foreignFiles) =
      [(.delete "gone", .done (.ok ()))] ∧
    (∀ key, ¬ Operation.Added key
      (Operation.history [.delete "gone"] (.inFiles ⟨"memory", ∅, ∅⟩, foreignFiles))) ∧
    foreignFiles.at? ["memory", "gone.json"] = some (.file "[]") ∧
    (Operation.leaves [.delete "gone"] (.inFiles ⟨"memory", ∅, ∅⟩, foreignFiles)).2.at?
      ["memory", "gone.json"] = none := by
  have hhistory : Operation.history [.delete "gone"]
      (.inFiles ⟨"memory", ∅, ∅⟩, foreignFiles) = [(.delete "gone", .done (.ok ()))] := rfl
  refine ⟨rfl, hhistory, fun key hadded => ?_, rfl, rfl⟩
  rw [hhistory] at hadded
  simp [Operation.Added] at hadded

end Pipeline
