import Pipeline.Proofs.Directories
import Pipeline.Proofs.FileText
import Pipeline.Proofs.StoreRefinement

/-!
# What a store leaves for the next one

A store in files is opened, a run of operations changes it, and a second store is
opened on the same directory without entries of its own.  What the second store
reads under a key is told by the last event of the run that touched the key
(`reopened_reads_last_event`): the value that was added, nothing after a removal,
and what was there before the first store when nothing touched the key.

A store without cache sees only the text of a key's file.  `Tracks` ties these texts
to the last events, and says which keys the store takes for written: those whose last
event added a value.  So a flush removes just what it should.
-/

namespace Pipeline

/-! ## The last event of a run that touched a key -/

/-- What the last event was that touched a key. -/
inductive LastEvent
  /-- Nothing touched the key. -/
  | none
  /-- A value was added. -/
  | added (value : Value)
  /-- The key was deleted, or flushed when its last event had added a value. -/
  | removed

namespace LastEvent

/-- The last event of a key after one more operation.  Reading touches nothing, and a
flush touches the keys that were added and not removed since. -/
def after (key : String) (last : LastEvent) : Operation → LastEvent
  | .add other value => if other = key then .added value else last
  | .delete other => if other = key then .removed else last
  | .flush =>
    match last with
    | .added _ => .removed
    | .removed => .removed
    | .none => .none
  | .retrieve _ | .contains _ | .size | .isEmpty => last

theorem after_eq_added {key : String} {last : LastEvent} {operation : Operation} {value : Value}
    (h : last.after key operation = .added value) :
    last = .added value ∨ operation = .add key value := by
  cases operation with
  | add other written =>
    rw [after] at h
    split at h
    next hkey => cases h; exact .inr (hkey ▸ rfl)
    next => exact .inl h
  | delete other =>
    rw [after] at h
    split at h
    · cases h
    · exact .inl h
  | flush => cases last <;> cases h
  | retrieve | contains | size | isEmpty => exact .inl h

/-- A value that a run added last was there before the run, or the run added it. -/
theorem foldl_after_eq_added {key : String} {operations : List Operation} {last : LastEvent}
    {value : Value} (h : operations.foldl (after key) last = .added value) :
    last = .added value ∨ .add key value ∈ operations := by
  induction operations generalizing last with
  | nil => exact .inl h
  | cons operation rest ih =>
    rcases ih h with hfirst | hrest
    · rcases after_eq_added hfirst with hlast | hadd
      · exact .inl hlast
      · exact .inr (hadd ▸ .head _)
    · exact .inr (.tail _ hrest)

/-- The text of a key's file after its last event, given the text before the run. -/
def text (last : LastEvent) (before : Except FileFault String) : Except FileFault String :=
  match last with
  | .none => before
  | .added value => .ok (Json.render value)
  | .removed => .error .notFound

end LastEvent

namespace Operation

/-- The last event that touched a key in a run of operations. -/
def lastEvent (key : String) (operations : List Operation) : LastEvent :=
  operations.foldl (LastEvent.after key) .none

/-- The store and files that a run of operations leaves. -/
def leaves : List Operation → Store × Files → Store × Files
  | [], s => s
  | operation :: rest, s => leaves rest (operation.perform s).2

theorem ok_of_not_error {result : Except MemoryError Unit}
    (h : ∀ error, Answer.done result ≠ .done (.error error)) : result = .ok () := by
  cases result with
  | ok _ => rfl
  | error error => exact absurd rfl (h error)

end Operation

/-! ## A store keeps track of its files -/

/-- The files and the written keys of a store are as the last events say, which are
counted from the files at its opening. -/
structure Tracks (directory : String) (opened : Files) (last : String → LastEvent)
    (s : FileStore) (fs : Files) : Prop where
  home : s.directory = directory
  keeps : Files.KeepsDirectories opened fs
  valid : ∀ {key}, last key ≠ .none → FileStore.validKey key = true
  written : ∀ key, s.written.contains key = true ↔ ∃ value, last key = .added value
  text : ∀ key, FileStore.fileText directory fs key =
    (last key).text (FileStore.fileText directory opened key)

namespace Tracks

variable {directory key : String} {opened fs : Files} {last : String → LastEvent}
variable {s : FileStore} {home : Names}

theorem add (h : Tracks directory opened last s fs) (hhome : opened.enter directory = .ok home)
    {value : Value} (hrun : (FileStore.add key value (s, fs)).result = .ok ()) :
    ∃ s' fs', FileStore.add key value (s, fs) = ⟨.ok (), [], (s', fs')⟩ ∧
      Tracks directory opened (fun k => (last k).after k (.add key value)) s' fs' := by
  obtain ⟨place, hplace⟩ := FileStore.fileAt_of_add hrun
  refine ⟨_, _, FileStore.add_of_fileAt hplace, ?_⟩
  rw [h.home] at hplace
  have hentered := Files.enter_of_keeps h.keeps hhome
  constructor
  · exact h.home
  · intro names hdir
    exact FileStore.keepsDirectories_put hplace _ names (h.keeps names hdir)
  · intro k hk
    by_cases hkey : key = k
    · exact hkey ▸ hplace.valid
    · rw [LastEvent.after, if_neg hkey] at hk
      exact h.valid hk
  · intro k
    rw [Ascending.contains_insert, LastEvent.after]
    by_cases hkey : key = k
    · simp [hkey]
    · simp [hkey, Ne.symm hkey, h.written]
  · intro k
    rw [FileStore.fileText_put hplace hentered, LastEvent.after, h.text]
    by_cases hkey : key = k
    · simp [hkey, LastEvent.text]
    · simp [hkey, Ne.symm hkey]

theorem delete (h : Tracks directory opened last s fs) (hhome : opened.enter directory = .ok home)
    (hrun : (FileStore.delete key (s, fs)).result = .ok ()) :
    ∃ s' fs', FileStore.delete key (s, fs) = ⟨.ok (), [], (s', fs')⟩ ∧
      Tracks directory opened (fun k => (last k).after k (.delete key)) s' fs' := by
  have hentered := Files.enter_of_keeps h.keeps hhome
  obtain ⟨place, hplace⟩ := FileStore.fileAt_of_delete (h.home ▸ hentered) hrun
  refine ⟨_, _, FileStore.delete_of_fileAt hplace, ?_⟩
  rw [h.home] at hplace
  constructor
  · exact h.home
  · intro names hdir
    exact FileStore.keepsDirectories_drop hplace names (h.keeps names hdir)
  · intro k hk
    by_cases hkey : key = k
    · exact hkey ▸ hplace.valid
    · rw [LastEvent.after, if_neg hkey] at hk
      exact h.valid hk
  · intro k
    rw [Ascending.contains_erase, LastEvent.after]
    by_cases hkey : key = k
    · simp [hkey]
    · simp [hkey, Ne.symm hkey, h.written]
  · intro k
    rw [FileStore.fileText_drop hplace hentered, LastEvent.after, h.text]
    by_cases hkey : key = k
    · simp [hkey, LastEvent.text]
    · simp [hkey, Ne.symm hkey]

theorem flush (h : Tracks directory opened last s fs) (hhome : opened.enter directory = .ok home)
    (hrun : (FileStore.flush (s, fs)).result = .ok ()) :
    ∃ s' fs', FileStore.flush (s, fs) = ⟨.ok (), [], (s', fs')⟩ ∧
      Tracks directory opened (fun k => (last k).after k .flush) s' fs' := by
  have hentered := Files.enter_of_keeps h.keeps hhome
  obtain ⟨fs', hflush, hkept, htext⟩ := FileStore.flush_of_result (h.home ▸ hentered) hrun
  rw [h.home] at htext
  refine ⟨_, fs', hflush, ?_⟩
  constructor
  · exact h.home
  · intro names hdir
    exact hkept names (h.keeps names hdir)
  · intro k hk
    refine h.valid fun hnone => hk ?_
    simp [LastEvent.after, hnone]
  · intro k
    simp only [LastEvent.after]
    constructor
    · intro hk
      cases hk
    · rintro ⟨value, hk⟩
      split at hk <;> cases hk
  · intro k
    rw [htext, h.text]
    -- the written keys are those whose last event added a value
    cases hlast : last k with
    | added value =>
      rw [if_pos ((h.written k).mpr ⟨value, hlast⟩)]
      simp [LastEvent.after, LastEvent.text]
    | none | removed =>
      have hnot : ¬ s.written.contains k = true := by simp [h.written, hlast]
      rw [if_neg hnot]
      simp [LastEvent.after, LastEvent.text]

/-- An operation that is no failed change keeps track of the files. -/
theorem perform (h : Tracks directory opened last s fs)
    (hhome : opened.enter directory = .ok home) (operation : Operation)
    (hdone : ∀ error, (operation.perform (.inFiles s, fs)).1 ≠ .done (.error error)) :
    ∃ s' fs', (operation.perform (.inFiles s, fs)).2 = (.inFiles s', fs') ∧
      Tracks directory opened (fun k => (last k).after k operation) s' fs' := by
  cases operation with
  | add key value =>
    have hrun : (FileStore.add key value (s, fs)).result = .ok () :=
      Operation.ok_of_not_error hdone
    obtain ⟨s', fs', hadd, hafter⟩ := h.add hhome hrun
    refine ⟨s', fs', ?_, hafter⟩
    rw [Operation.perform, Store.add, Store.act, hadd]
  | delete key =>
    have hrun : (FileStore.delete key (s, fs)).result = .ok () :=
      Operation.ok_of_not_error hdone
    obtain ⟨s', fs', hdelete, hafter⟩ := h.delete hhome hrun
    refine ⟨s', fs', ?_, hafter⟩
    rw [Operation.perform, Store.delete, Store.act, hdelete]
  | flush =>
    have hrun : (FileStore.flush (s, fs)).result = .ok () :=
      Operation.ok_of_not_error hdone
    obtain ⟨s', fs', hflush, hafter⟩ := h.flush hhome hrun
    refine ⟨s', fs', ?_, hafter⟩
    rw [Operation.perform, Store.flush, Store.act, hflush]
  | retrieve key =>
    refine ⟨s, fs, ?_, h⟩
    simp only [Operation.perform, Store.retrieve, Store.act, FileStore.retrieve_state]
  | contains key => exact ⟨s, fs, rfl, h⟩
  | size => exact ⟨s, fs, rfl, h⟩
  | isEmpty => exact ⟨s, fs, rfl, h⟩

/-- A run without failed changes keeps track of the files. -/
theorem run (h : Tracks directory opened last s fs) (hhome : opened.enter directory = .ok home)
    (operations : List Operation)
    (hdone : ∀ error, .done (.error error) ∉ Operation.answers operations (.inFiles s, fs)) :
    ∃ s' fs', Operation.leaves operations (.inFiles s, fs) = (.inFiles s', fs') ∧
      Tracks directory opened (fun k => operations.foldl (LastEvent.after k) (last k)) s' fs' := by
  induction operations generalizing last s fs with
  | nil => exact ⟨s, fs, rfl, h⟩
  | cons operation rest ih =>
    simp only [Operation.answers, List.mem_cons, not_or] at hdone
    obtain ⟨s', fs', hperform, hafter⟩ :=
      h.perform hhome operation fun error => Ne.symm (hdone error).1
    rw [hperform] at hdone
    obtain ⟨s'', fs'', hleaves, htracks⟩ := ih hafter fun error => (hdone error).2
    refine ⟨s'', fs'', ?_, htracks⟩
    rw [Operation.leaves, hperform, hleaves]

end Tracks

/-! ## Opening a store again -/

theorem Store.create_of_makeDirectories {directory : String} {fs opened : Files}
    (h : fs.makeDirectories directory = (opened, .ok ())) (initial : Record) :
    Store.create (some directory) initial fs =
      ⟨.ok (.inFiles ⟨directory, initial, ∅⟩), [], opened⟩ := by
  have hcreate : FileStore.create directory initial fs =
      ⟨.ok ⟨directory, initial, ∅⟩, [], opened⟩ := by rw [FileStore.create, h]
  rw [Store.create, Effect.bind_of_ok hcreate]
  rfl

/-- Opening a store makes its directory, whatever the initial entries are. -/
theorem Store.makeDirectories_of_create {directory : String} {initial : Record}
    {fs opened : Files} {events : List Event} {store : Store}
    (h : Store.create (some directory) initial fs = ⟨.ok store, events, opened⟩) :
    fs.makeDirectories directory = (opened, .ok ()) := by
  obtain ⟨fs', result, hmake⟩ : ∃ fs' result, fs.makeDirectories directory = (fs', result) :=
    ⟨_, _, rfl⟩
  cases result with
  | error fault =>
    have hcreate : FileStore.create directory initial fs =
        ⟨.error (.file directory fault), [], fs'⟩ := by rw [FileStore.create, hmake]
    rw [Store.create, Effect.bind_of_error hcreate] at h
    cases h
  | ok _ =>
    rw [Store.create_of_makeDirectories hmake] at h
    cases h
    exact hmake

theorem tracks_opened (directory : String) (initial : Record) (opened : Files) :
    Tracks directory opened (fun _ => .none) ⟨directory, initial, ∅⟩ opened where
  home := rfl
  keeps _ hdir := hdir
  valid hnone := absurd rfl hnone
  written key := by
    constructor
    · intro hkey
      cases hkey
    · rintro ⟨value, hkey⟩
      cases hkey
  text _ := rfl

/-- What a store without cache reads under a key. -/
theorem retrieve_fresh (directory key : String) (fs : Files) :
    (Store.retrieve key (.inFiles ⟨directory, ∅, ∅⟩, fs)).result =
      if FileStore.validKey key then
        FileStore.readAs key (FileStore.fileText directory fs key)
      else .error (.invalidKey key) := by
  have hcache : (⟨directory, ∅, ∅⟩ : FileStore).cache.get? key = none := rfl
  obtain ⟨events, hrun⟩ := FileStore.retrieve_of_not_cached fs hcache
  rw [Store.retrieve, Store.act, hrun]

/-- After a run of operations on a store in files, of which no change fails, a second
store opens on the directory and reads every key as its last event says.  A key that
nothing touched is read as a store would have read it before the run. -/
theorem reopened_reads_last_event {directory : String} {initial : Record} {fs opened : Files}
    {store : Store} {events : List Event} {operations : List Operation}
    (hopen : Store.create (some directory) initial fs = ⟨.ok store, events, opened⟩)
    (hdone : ∀ error, .done (.error error) ∉ Operation.answers operations (store, opened))
    (hparse : ∀ key value, .add key value ∈ operations →
      Json.parse (Json.render value) = .ok value) :
    ∃ before second,
      Store.create (some directory) ∅ fs = ⟨.ok before, [], opened⟩ ∧
      Store.create (some directory) ∅ (Operation.leaves operations (store, opened)).2 =
        ⟨.ok second, [], (Operation.leaves operations (store, opened)).2⟩ ∧
      ∀ key, (Store.retrieve key (second, (Operation.leaves operations (store, opened)).2)).result =
        match Operation.lastEvent key operations with
        | .none => (Store.retrieve key (before, opened)).result
        | .added value => .ok value
        | .removed => .error (.notFound key) := by
  have hmake := Store.makeDirectories_of_create hopen
  have hmade := Files.made_of_makeDirectories hmake
  obtain ⟨home, hhome⟩ := hmade.enter
  rw [Store.create_eq_ok hopen] at hdone ⊢
  obtain ⟨s, left, hleaves, htracks⟩ :=
    (tracks_opened directory initial opened).run hhome operations hdone
  have hagain := (hmade.of_keeps htracks.keeps).makeDirectories
  rw [hleaves]
  refine ⟨_, _, Store.create_of_makeDirectories hmake ∅,
    Store.create_of_makeDirectories hagain ∅, fun key => ?_⟩
  have hvalid : Operation.lastEvent key operations ≠ .none → FileStore.validKey key = true :=
    htracks.valid
  rw [retrieve_fresh, retrieve_fresh, htracks.text]
  change (if _ then FileStore.readAs key ((Operation.lastEvent key operations).text _) else _) = _
  cases hlast : Operation.lastEvent key operations with
  | none => rfl
  | added value =>
    have hadded : Operation.add key value ∈ operations := by
      rcases LastEvent.foldl_after_eq_added hlast with hnone | hadded
      · cases hnone
      · exact hadded
    rw [if_pos (hvalid (by simp [hlast])), LastEvent.text, FileStore.readAs,
      hparse key value hadded]
    rfl
  | removed =>
    rw [if_pos (hvalid (by simp [hlast]))]
    rfl

/-- A directory with files that no store in the run has written. -/
def foreignFiles : Files :=
  ⟨[(["memory"], .directory), (["memory", "old.json"], .file "true"),
    (["memory", "gone.json"], .file "[]")]⟩

/-- One key is flushed, a foreign file is deleted, and one key is kept. -/
def savingRun : List Operation :=
  [.add "flushed" .null, .delete "gone", .retrieve "seed", .flush, .add "kept" .null,
    .add "kept" (.bool true)]

theorem savingRun_reopened :
    Store.create (some "memory") seeded foreignFiles =
      ⟨.ok (.inFiles ⟨"memory", seeded, ∅⟩), [], foreignFiles⟩ ∧
    Operation.answers savingRun (.inFiles ⟨"memory", seeded, ∅⟩, foreignFiles) =
      [.done (.ok ()), .done (.ok ()), .read (.ok .null), .done (.ok ()), .done (.ok ()),
        .done (.ok ())] ∧
    (∀ key value, .add key value ∈ savingRun → Json.parse (Json.render value) = .ok value) ∧
    ∃ before second left,
      Store.create (some "memory") ∅ foreignFiles = ⟨.ok before, [], foreignFiles⟩ ∧
      Store.create (some "memory") ∅ left = ⟨.ok second, [], left⟩ ∧
      (Store.retrieve "kept" (second, left)).result = .ok (.bool true) ∧
      (Store.retrieve "flushed" (second, left)).result = .error (.notFound "flushed") ∧
      (Store.retrieve "gone" (second, left)).result = .error (.notFound "gone") ∧
      (Store.retrieve "old" (second, left)).result =
        (Store.retrieve "old" (before, foreignFiles)).result ∧
      (Store.retrieve "seed" (second, left)).result =
        (Store.retrieve "seed" (before, foreignFiles)).result := by
  have hopen : Store.create (some "memory") seeded foreignFiles =
      ⟨.ok (.inFiles ⟨"memory", seeded, ∅⟩), [], foreignFiles⟩ := rfl
  have hanswers : Operation.answers savingRun (.inFiles ⟨"memory", seeded, ∅⟩, foreignFiles) =
      [.done (.ok ()), .done (.ok ()), .read (.ok .null), .done (.ok ()), .done (.ok ()),
        .done (.ok ())] := rfl
  have hdone : ∀ error, .done (.error error) ∉
      Operation.answers savingRun (.inFiles ⟨"memory", seeded, ∅⟩, foreignFiles) := by
    intro error hmem
    rw [hanswers] at hmem
    simp at hmem
  have hparse : ∀ key value, .add key value ∈ savingRun →
      Json.parse (Json.render value) = .ok value := by
    intro key value hmem
    have hvalue : value = .null ∨ value = .bool true := by
      simp only [savingRun, List.mem_cons, Operation.add.injEq, reduceCtorEq,
        List.not_mem_nil] at hmem
      grind
    rcases hvalue with rfl | rfl <;> rfl
  obtain ⟨before, second, hbefore, hsecond, hread⟩ := reopened_reads_last_event hopen hdone hparse
  exact ⟨hopen, hanswers, hparse, before, second, _, hbefore, hsecond, hread "kept",
    hread "flushed", hread "gone", hread "old", hread "seed"⟩

end Pipeline
