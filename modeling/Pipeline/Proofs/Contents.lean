import Pipeline.Proofs.FileStore
import Pipeline.Proofs.Halting
import Pipeline.Proofs.MemoryActions
import Pipeline.Stock.Executable

/-!
# Worlds with the same contents

The memories and the files of a world are listed in some order, and a change may list them
anew.  What they hold is what is looked up: `World.Same` says that two worlds hold the same.

`Effect.Respects` and `Process.Respects` say of what acts on related states that it ends in
the same way from both, and leaves related states.  Actions on files and memory respect the
contents, so a tree does when its units do (`Component.respects_same`).
-/

namespace Pipeline

/-! ## Respecting a relation -/

section

variable {σ ε α β : Type} {S : σ → σ → Prop}

/-- From related states the effect ends in the same way, and leaves related states. -/
def Effect.Respects (S : σ → σ → Prop) (x : Effect σ ε α) : Prop :=
  ∀ ⦃s s'⦄, S s s' → ∃ result events t t',
    x s = ⟨result, events, t⟩ ∧ x s' = ⟨result, events, t'⟩ ∧ S t t'

/-- The same of a process, which may also give no answer from either state. -/
def Process.Respects (S : σ → σ → Prop) (x : Process σ ε α) : Prop :=
  ∀ ⦃s s'⦄, S s s' → (x s = none ∧ x s' = none) ∨ ∃ result events t t',
    x s = some ⟨result, events, t⟩ ∧ x s' = some ⟨result, events, t'⟩ ∧ S t t'

namespace Effect.Respects

variable {x : Effect σ ε α} {f : α → Effect σ ε β}

theorem ofExcept (y : Except ε α) : Respects S (Effect.ofExcept y : Effect σ ε α) :=
  fun s s' h => ⟨y, [], s, s', rfl, rfl, h⟩

theorem pure (a : α) : Respects S (Pure.pure a : Effect σ ε α) := ofExcept (.ok a)

theorem throw (e : ε) : Respects S (MonadExcept.throw e : Effect σ ε α) := ofExcept (.error e)

theorem emit (events : List Event) : Respects S (Effect.emit events : Effect σ ε Unit) :=
  fun s s' h => ⟨.ok (), events, s, s', rfl, rfl, h⟩

/-- The two runs from related states. -/
theorem apply {s s' : σ} (hx : Respects S x) (h : S s s') : ∃ result events t t',
    x s = ⟨result, events, t⟩ ∧ x s' = ⟨result, events, t'⟩ ∧ S t t' := hx h

/-- What follows starts from the related states that the first part left. -/
theorem bind (hx : Respects S x) (hf : ∀ a, Respects S (f a)) : Respects S (x >>= f) := by
  intro s s' h
  obtain ⟨error | a, first, t, t', hrun, hrun', hafter⟩ := hx h
  · exact ⟨.error error, first, t, t', bind_of_error hrun, bind_of_error hrun', hafter⟩
  · obtain ⟨result, second, u, u', hrunf, hrunf', hlast⟩ := hf a hafter
    refine ⟨result, first ++ second, u, u', ?_, ?_, hlast⟩
    · rw [bind_of_ok hrun, hrunf]; rfl
    · rw [bind_of_ok hrun', hrunf']; rfl

/-- A handler starts from the related states that the failed part left. -/
theorem tryCatch {handle : ε → Effect σ ε α} (hx : Respects S x)
    (hhandle : ∀ error, Respects S (handle error)) :
    Respects S (MonadExcept.tryCatch x handle) := by
  intro s s' h
  obtain ⟨error | a, first, t, t', hrun, hrun', hafter⟩ := hx h
  · obtain ⟨result, second, u, u', hrunh, hrunh', hlast⟩ := hhandle error hafter
    refine ⟨result, first ++ second, u, u', ?_, ?_, hlast⟩
    · rw [tryCatch_of_error hrun, hrunh]; rfl
    · rw [tryCatch_of_error hrun', hrunh']; rfl
  · exact ⟨.ok a, first, t, t', tryCatch_of_ok hrun, tryCatch_of_ok hrun', hafter⟩

theorem mapError {δ : Type} (g : ε → δ) (hx : Respects S x) : Respects S (x.mapError g) := by
  intro s s' h
  obtain ⟨result, events, t, t', hrun, hrun', hafter⟩ := hx h
  refine ⟨result.mapError g, events, t, t', ?_, ?_, hafter⟩
  · simp only [Effect.mapError, hrun, Run.mapError]
  · simp only [Effect.mapError, hrun', Run.mapError]

end Effect.Respects

namespace Process.Respects

variable {x : Process σ ε α} {f : α → Process σ ε β}

/-- An effect that respects a relation does so as a process. -/
theorem ofEffect {y : Effect σ ε α} (h : y.Respects S) : Respects S (Process.ofEffect y) := by
  intro s s' hstate
  obtain ⟨result, events, t, t', hrun, hrun', hafter⟩ := h hstate
  exact .inr ⟨result, events, t, t', congrArg some hrun, congrArg some hrun', hafter⟩

theorem pure (a : α) : Respects S (Pure.pure a : Process σ ε α) := ofEffect (.pure a)

theorem throw (e : ε) : Respects S (MonadExcept.throw e : Process σ ε α) := ofEffect (.throw e)

theorem emit (events : List Event) : Respects S (Process.emit events : Process σ ε Unit) :=
  ofEffect (.emit events)

theorem endless : Respects S (Process.endless : Process σ ε α) :=
  fun _ _ _ => .inl ⟨rfl, rfl⟩

/-- Where the first part gives no answer from either state, nor does the whole. -/
theorem bind (hx : Respects S x) (hf : ∀ a, Respects S (f a)) : Respects S (x >>= f) := by
  intro s s' h
  obtain ⟨hnone, hnone'⟩ | ⟨error | a, first, t, t', hrun, hrun', hafter⟩ := hx h
  · exact .inl ⟨bind_of_none hnone, bind_of_none hnone'⟩
  · exact .inr ⟨.error error, first, t, t', bind_of_error hrun, bind_of_error hrun', hafter⟩
  · rw [bind_of_ok hrun, bind_of_ok hrun']
    obtain ⟨hnone, hnone'⟩ | ⟨result, second, u, u', hrunf, hrunf', hlast⟩ := hf a hafter
    · exact .inl ⟨by rw [hnone]; rfl, by rw [hnone']; rfl⟩
    · refine .inr ⟨result, first ++ second, u, u', ?_, ?_, hlast⟩
      · rw [hrunf]; rfl
      · rw [hrunf']; rfl

/-- What runs from one state respects equality. -/
theorem eq (x : Process σ ε α) : Respects Eq x := by
  rintro s _ rfl
  cases x s with
  | none => exact .inl ⟨rfl, rfl⟩
  | some z => exact .inr ⟨z.result, z.events, z.state, z.state, rfl, rfl, rfl⟩

/-- A run from one state is a run from a related one. -/
theorem of_some {s s' t : σ} {result : Except ε α} {events : List Event} (hx : Respects S x)
    (h : S s s') (hrun : x s = some ⟨result, events, t⟩) :
    ∃ t', x s' = some ⟨result, events, t'⟩ ∧ S t t' := by
  obtain ⟨hnone, _⟩ | ⟨_, _, _, t', hrun', hrun'', hafter⟩ := hx h
  · rw [hnone] at hrun
    cases hrun
  · cases hrun'.symm.trans hrun
    exact ⟨t', hrun'', hafter⟩

/-- An error that is looked at as a value is the same from both states. -/
theorem attempt (hx : Respects S x) : Respects S x.attempt := by
  intro s s' h
  obtain ⟨hnone, hnone'⟩ | ⟨result, events, t, t', hrun, hrun', hafter⟩ := hx h
  · exact .inl ⟨attempt_of_none hnone, attempt_of_none hnone'⟩
  · exact .inr ⟨.ok result, events, t, t', attempt_of_some hrun, attempt_of_some hrun', hafter⟩

end Process.Respects

end

namespace Process.Respects

variable {S : World → World → Prop}

/-- An evaluator reports the same error from both states, and puts the same layer around it. -/
theorem within (e : Evaluator) {body : Course Outcome} (h : Respects S body) :
    Respects S (evaluateIn e body) := by
  refine h.attempt.bind fun result => ?_
  cases result with
  | ok outcome => exact pure outcome
  | error error => exact (emit _).bind fun _ => throw _

/-- A step of a schema, with what runs after it from the related states it left. -/
theorem step (e : Evaluator) {x : Course Outcome} {f : Record → Course Outcome} (name : String)
    (index : Nat) (component : String) (register : Record) (hx : Respects S x)
    (hf : ∀ r, Respects S (f r)) :
    Respects S (afterStep e name index component register x f) := by
  refine hx.attempt.bind fun result => ?_
  obtain error | (r | r) := result
  · refine (emit _).bind fun _ => ?_
    split
    · exact throw _
    · exact (emit _).bind fun _ => hf register
  · exact (emit _).bind fun _ => hf r
  · exact pure _

end Process.Respects

/-! ## Files -/

/-- The same is found under every path. -/
def Files.Same (fs fs' : Files) : Prop := ∀ names, fs.at? names = fs'.at? names

namespace Files.Same

variable {fs fs' : Files}

theorem refl (fs : Files) : Same fs fs := fun _ => rfl

theorem symm (h : Same fs fs') : Same fs' fs := fun names => (h names).symm

theorem trans {fs'' : Files} (h : Same fs fs') (h' : Same fs' fs'') : Same fs fs'' :=
  fun names => (h names).trans (h' names)

/-- A walk asks only what is found under a path. -/
theorem walk (h : Same fs fs') (here : Names) (rest : List String) :
    fs.walk here rest = fs'.walk here rest := by
  induction rest generalizing here with
  | nil => rfl
  | cons name rest ih => simp only [Files.walk, h here, ih]

/-- A directory is entered alike in trees with the same contents. -/
theorem enter (h : Same fs fs') (directory : String) :
    fs.enter directory = fs'.enter directory := by
  rw [Files.enter, Files.enter, h.walk]
  cases fs'.walk [] (Files.parts directory) with
  | error fault => rfl
  | ok names => simp only [bind, Except.bind, h names]

/-- The name of a file leads to one place in trees with the same contents. -/
theorem locateIn (h : Same fs fs') (directory name : String) :
    fs.locateIn directory name = fs'.locateIn directory name := by
  rw [Files.locateIn, Files.locateIn, h.enter]

/-- A file reads alike. -/
theorem readAt (h : Same fs fs') (place : Place) : fs.readAt place = fs'.readAt place := by
  rw [Files.readAt, Files.readAt, h place.names]

/-- One entry at one path leaves the contents the same. -/
theorem put (h : Same fs fs') (names : Names) (entry : Entry) :
    Same (fs.put names entry) (fs'.put names entry) := by
  intro other
  by_cases hroot : other = []
  · subst hroot
    rfl
  · have hother := h other
    rw [at?_of_ne_nil hroot, at?_of_ne_nil hroot] at hother
    rw [at?_of_ne_nil hroot, at?_of_ne_nil hroot, Files.put, Files.put, lookup_cons_eq_ite,
      lookup_cons_eq_ite, lookup_filter_ne, lookup_filter_ne, hother]

theorem drop (h : Same fs fs') (names : Names) : Same (fs.drop names) (fs'.drop names) := by
  intro other
  by_cases hroot : other = []
  · subst hroot
    rfl
  · have hother := h other
    rw [at?_of_ne_nil hroot, at?_of_ne_nil hroot] at hother
    rw [at?_of_ne_nil hroot, at?_of_ne_nil hroot, Files.drop, Files.drop, lookup_filter_ne,
      lookup_filter_ne, hother]

/-- A change that fails in both trees alike, or leaves trees with the same contents. -/
def Changes (x y : Except FileFault Files) : Prop :=
  (∃ fault, x = .error fault ∧ y = .error fault) ∨ ∃ gs gs', x = .ok gs ∧ y = .ok gs' ∧ Same gs gs'

/-- One text at one place is written or refused alike. -/
theorem writeAt (h : Same fs fs') (place : Place) (text : String) :
    Changes (fs.writeAt place text) (fs'.writeAt place text) := by
  rw [Files.writeAt, Files.writeAt, h place.names]
  have hput := h.put place.names (.file text)
  cases fs'.at? place.names with
  | none =>
    cases place.slash with
    | true => exact .inl ⟨_, rfl, rfl⟩
    | false => exact .inr ⟨_, _, rfl, rfl, hput⟩
  | some held =>
    cases held with
    | directory => exact .inl ⟨_, rfl, rfl⟩
    | file old =>
      cases place.slash with
      | true => exact .inl ⟨_, rfl, rfl⟩
      | false => exact .inr ⟨_, _, rfl, rfl, hput⟩

/-- The file at one place is removed or missing alike. -/
theorem removeAt (h : Same fs fs') (place : Place) :
    Changes (fs.removeAt place) (fs'.removeAt place) := by
  rw [Files.removeAt, Files.removeAt, h place.names]
  have hdrop := h.drop place.names
  cases fs'.at? place.names with
  | none => exact .inl ⟨_, rfl, rfl⟩
  | some held =>
    cases held with
    | directory => exact .inl ⟨_, rfl, rfl⟩
    | file old =>
      cases place.slash with
      | true => exact .inl ⟨_, rfl, rfl⟩
      | false => exact .inr ⟨_, _, rfl, rfl, hdrop⟩

/-- A change at the place of a name. -/
theorem changes_in (h : Same fs fs') (directory name : String)
    {f f' : Place → Except FileFault Files} (hf : ∀ place, Changes (f place) (f' place)) :
    Changes (fs.locateIn directory name >>= f) (fs'.locateIn directory name >>= f') := by
  rw [h.locateIn]
  cases fs'.locateIn directory name with
  | error fault => exact .inl ⟨fault, rfl, rfl⟩
  | ok place => exact hf place

/-- Calls that fail in both trees alike and change no file, or leave trees with the same
contents. -/
def Answers (fs fs' : Files) (x y : Files × Except FileFault Unit) : Prop :=
  (∃ fault, x = (fs, .error fault) ∧ y = (fs', .error fault)) ∨
    ∃ gs gs', x = (gs, .ok ()) ∧ y = (gs', .ok ()) ∧ Same gs gs'

/-- Changes made whole or not at all are answered alike. -/
theorem Changes.answers {x y : Except FileFault Files} (h : Changes x y) :
    Answers fs fs' (FileCalls.answer fs x) (FileCalls.answer fs' y) := by
  obtain ⟨fault, rfl, rfl⟩ | ⟨gs, gs', rfl, rfl, hgs⟩ := h
  · exact .inl ⟨fault, rfl, rfl⟩
  · exact .inr ⟨gs, gs', rfl, rfl, hgs⟩

/-- A willing call writes one text under one name alike. -/
theorem writeIn_willing (h : Same fs fs') (directory name text : String) :
    Answers fs fs' (FileCalls.willing.writeIn fs directory name text)
      (FileCalls.willing.writeIn fs' directory name text) := by
  rw [FileCalls.writeIn_willing, FileCalls.writeIn_willing]
  exact (h.changes_in directory name fun place => h.writeAt place text).answers

/-- A willing call removes the file with one name alike. -/
theorem removeIn_willing (h : Same fs fs') (directory name : String) :
    Answers fs fs' (FileCalls.willing.removeIn fs directory name)
      (FileCalls.willing.removeIn fs' directory name) := by
  rw [FileCalls.removeIn_willing, FileCalls.removeIn_willing]
  exact (h.changes_in directory name h.removeAt).answers

end Files.Same

/-! ## Stores -/

/-- The same state, beside files with the same contents. -/
def Beside {τ : Type} (p q : τ × Files) : Prop := p.1 = q.1 ∧ p.2.Same q.2

namespace FileStore

/-- A change of the store alone leaves the files as they are. -/
theorem update_respects (f : FileStore → FileStore) : (update f).Respects Beside := by
  rintro ⟨s, fs⟩ ⟨s', fs'⟩ ⟨hs, hfs⟩
  cases hs
  exact ⟨.ok (), [], _, _, rfl, rfl, rfl, hfs⟩

/-- The key is refused in both, or its file is written in both. -/
theorem add_respects (key : String) (value : Value) : (add key value).Respects Beside := by
  rintro ⟨s, fs⟩ ⟨s', fs'⟩ ⟨hs, hfs⟩
  cases hs
  rw [add]
  cases hvalid : validKey key with
  | false =>
    rw [addWith_of_invalid hvalid, addWith_of_invalid hvalid]
    exact ⟨_, [], (s, fs), (s, fs'), rfl, rfl, rfl, hfs⟩
  | true =>
    obtain ⟨fault, hx, hy⟩ | ⟨gs, gs', hx, hy, hgs⟩ :=
      hfs.writeIn_willing s.directory (fileName key) (Json.render value)
    · rw [addWith_of_unwritten hvalid hx, addWith_of_unwritten hvalid hy]
      exact ⟨_, [], (s, fs), (s, fs'), rfl, rfl, rfl, hfs⟩
    · rw [addWith_of_written hvalid hx, addWith_of_written hvalid hy]
      exact ⟨_, [], _, _, rfl, rfl, rfl, hgs⟩

/-- A file that is missing in one is missing in the other, and that is no error. -/
theorem removeFile_respects (key : String) : (removeFile key).Respects Beside := by
  rintro ⟨s, fs⟩ ⟨s', fs'⟩ ⟨hs, hfs⟩
  cases hs
  rw [removeFile]
  cases hvalid : validKey key with
  | false =>
    rw [removeFileWith_of_invalid hvalid, removeFileWith_of_invalid hvalid]
    exact ⟨_, [], (s, fs), (s, fs'), rfl, rfl, rfl, hfs⟩
  | true =>
    obtain ⟨fault, hx, hy⟩ | ⟨gs, gs', hx, hy, hgs⟩ :=
      hfs.removeIn_willing s.directory (fileName key)
    · by_cases hfault : fault = .notFound
      · subst hfault
        rw [removeFileWith_of_removed hvalid (.inr hx),
          removeFileWith_of_removed hvalid (.inr hy)]
        exact ⟨_, [], (s, fs), (s, fs'), rfl, rfl, rfl, hfs⟩
      · rw [removeFileWith_of_kept hvalid hx hfault, removeFileWith_of_kept hvalid hy hfault]
        exact ⟨_, [], (s, fs), (s, fs'), rfl, rfl, rfl, hfs⟩
    · rw [removeFileWith_of_removed hvalid (.inl hx), removeFileWith_of_removed hvalid (.inl hy)]
      exact ⟨_, [], _, _, rfl, rfl, rfl, hgs⟩

/-- The caches are the same, and past them the files read alike. -/
theorem retrieve_respects (key : String) : (retrieve key).Respects Beside := by
  rintro ⟨s, fs⟩ ⟨s', fs'⟩ ⟨hs, hfs⟩
  cases hs
  have hread : (do fs.readAt (← fs.locateIn s.directory (fileName key))) =
      (do fs'.readAt (← fs'.locateIn s.directory (fileName key)) : Except FileFault String) := by
    rw [hfs.locateIn]
    cases fs'.locateIn s.directory (fileName key) with
    | error fault => rfl
    | ok place => exact hfs.readAt place
  simp only [retrieve, Effect.get_bind, hread]
  -- the rest looks at the text that was read, and no longer at the files
  refine Effect.Respects.apply ?_ ⟨rfl, hfs⟩
  split
  · exact .pure _
  · refine (Effect.Respects.ofExcept _).bind fun path => ?_
    split
    · exact .throw _
    · exact .throw _
    · split
      · exact .throw _
      · exact (Effect.Respects.emit _).bind fun _ => .pure _

theorem delete_respects (key : String) : (delete key).Respects Beside := by
  refine (update_respects _).bind fun _ => ?_
  exact (removeFile_respects key).bind fun _ => update_respects _

/-- The files of several keys, one after another. -/
theorem removeFiles_respects (keys : List String) : (removeFiles keys).Respects Beside := by
  induction keys with
  | nil => exact .pure _
  | cons key rest ih => exact (removeFile_respects key).bind fun _ => ih

theorem flush_respects : flush.Respects Beside := by
  rintro ⟨s, fs⟩ ⟨s', fs'⟩ ⟨hs, hfs⟩
  cases hs
  rw [flush_apply, flush_apply]
  exact removeFiles_respects s.written.keys ⟨rfl, hfs⟩

end FileStore

namespace Store

variable {α : Type}

/-- An operation in process does not look at the files; one in files respects the contents. -/
theorem act_respects (inProcess : Record → Except MemoryError (α × Record))
    {inFiles : FileStore.Action α} (h : inFiles.Respects Beside) :
    (act inProcess inFiles).Respects Beside := by
  rintro ⟨store, fs⟩ ⟨store', fs'⟩ ⟨hstore, hfs⟩
  cases hstore
  cases store with
  | inProcess entries =>
    simp only [act]
    cases inProcess entries with
    | ok answer => exact ⟨.ok answer.1, [], _, _, rfl, rfl, rfl, hfs⟩
    | error e => exact ⟨.error e, [], _, _, rfl, rfl, rfl, hfs⟩
  | inFiles s =>
    have hstates : Beside (s, fs) (s, fs') := ⟨rfl, hfs⟩
    obtain ⟨result, events, ⟨t, gs⟩, ⟨t', gs'⟩, hrun, hrun', ht, hgs⟩ := h hstates
    cases ht
    refine ⟨result, events, (.inFiles t, gs), (.inFiles t, gs'), ?_, ?_, rfl, hgs⟩
    · simp only [act, hrun]
    · simp only [act, hrun']

theorem add_respects (key : String) (value : Value) : (add key value).Respects Beside :=
  act_respects _ (FileStore.add_respects key value)

theorem retrieve_respects (key : String) : (retrieve key).Respects Beside :=
  act_respects _ (FileStore.retrieve_respects key)

theorem delete_respects (key : String) : (delete key).Respects Beside :=
  act_respects _ (FileStore.delete_respects key)

theorem flush_respects : flush.Respects Beside := act_respects _ FileStore.flush_respects

end Store

namespace Memory

theorem set_respects (key : String) (value : Value) : (set key value).Respects Beside := by
  refine (Store.add_respects key value).bind fun _ => ?_
  rintro ⟨store, fs⟩ ⟨store', fs'⟩ ⟨hstore, hfs⟩
  cases hstore
  exact ⟨.ok (), _, (store, fs), (store, fs'), rfl, rfl, rfl, hfs⟩

/-- A default is used in both or in neither. -/
theorem lookup_respects (key : String) (default : Record) :
    (lookup key default).Respects Beside := by
  refine (Store.retrieve_respects key).tryCatch fun error => ?_
  split
  · exact (Effect.Respects.emit _).bind fun _ => .pure _
  · exact .throw _

/-- Reading several entries, and taking them out where they are popped. -/
theorem get_respects (default : Record) (delete : Bool) (identifiers : List Identifier)
    (register : Record) : (get default delete identifiers register).Respects Beside := by
  induction identifiers generalizing register with
  | nil => exact .pure _
  | cons identifier rest ih =>
    refine (lookup_respects _ _).bind fun value => ?_
    cases delete with
    | false => exact (Effect.Respects.pure _).bind fun _ => ih _
    | true => exact (Store.delete_respects _).bind fun _ => ih _

theorem deleteAll_respects (keys : List String) : (deleteAll keys).Respects Beside := by
  induction keys with
  | nil => exact .pure _
  | cons key rest ih => exact (Store.delete_respects key).bind fun _ => ih

theorem flush_respects : flush.Respects Beside := by
  rintro ⟨store, fs⟩ ⟨store', fs'⟩ ⟨hstore, hfs⟩
  cases hstore
  simp only [flush, Effect.get_bind]
  exact (Store.flush_respects.bind fun _ => .emit _) ⟨rfl, hfs⟩

end Memory

/-! ## Worlds -/

/-- The worlds hold the same. -/
structure World.Same (w w' : World) : Prop where
  memories : ∀ id, w.memory id = w'.memory id
  files : w.files.Same w'.files

namespace World.Same

variable {w w' w'' : World}

theorem refl (w : World) : Same w w := ⟨fun _ => rfl, .refl w.files⟩

theorem symm (h : Same w w') : Same w' w := ⟨fun id => (h.memories id).symm, h.files.symm⟩

theorem trans (h : Same w w') (h' : Same w' w'') : Same w w'' :=
  ⟨fun id => (h.memories id).trans (h'.memories id), h.files.trans h'.files⟩

end World.Same

/-- An action on one memory, in worlds that hold the same. -/
theorem World.onMemory_respects {α : Type} (id : MemoryId) {x : Store.Action α}
    (hx : x.Respects Beside) : (World.onMemory id x).Respects Same := by
  intro w w' h
  obtain ⟨result, events, after, after', hrun, hrun', hstore, hfiles⟩ :=
    hx (show Beside (w.memory id, w.files) (w'.memory id, w'.files) from ⟨h.memories id, h.files⟩)
  refine ⟨_, events, _, _, World.onMemory_of_run hrun, World.onMemory_of_run hrun', ?_, hfiles⟩
  intro other
  rw [World.memory_withMemory, World.memory_withMemory, hstore, h.memories]

/-! ## Trees -/

/-- A unit ends in the same way in worlds that hold the same. -/
def Component.SeesContents : Component → Prop
  | .executable _ _ x => ∀ data e, (x.invoke data e).Respects World.Same
  | _ => True

/-- So does a test. -/
def Predicate.SeesContents : Predicate → Prop
  | .test check => ∀ register e, (check register e).Respects World.Same
  | _ => True

/-- What a leaf does around its work looks at no state. -/
theorem leafLogic_respects (S : World → World → Prop) : LeafLogic fun {_} x => x.Respects S where
  answer := .ofExcept
  report _ _ _ _ := .emit _
  bind := .bind
  mapError := .mapError

/-- A tree respects a relation when its units, its tests and its reads do. -/
theorem Process.Respects.simulation {S : World → World → Prop} {Q : Component → Prop}
    {R : Predicate → Prop} (rounds : Nat)
    (hwork : ∀ {c : Component}, c.IsLeaf → Q c → ∀ e, c.WorkKeeps (fun {_} x => x.Respects S) e)
    (htest : ∀ {check}, R (.test check) → ∀ register e, (check register e).Respects S)
    (hfetch : ∀ {name validator body identifiers},
      R (.condition name validator body (some identifiers)) → ∀ (e : Evaluator) register,
        (e.getMemory register identifiers ∅ false).Respects S) :
    Simulation rounds rounds Eq (fun x _ => Respects S x) (fun _ => Q) (fun _ => R) where
  le := Nat.le_refl rounds
  endless _ := endless
  pure := pure
  list _ _ := ofEffect (.ofExcept _)
  element _ := ofEffect (.ofExcept _)
  bind := bind
  child _ he := by rw [he]
  emit _ _ _ := emit _
  within _ h := within _ h
  step name index component register _ hx hf := step _ name index component register hx hf
  leaf c register hc h _ := by
    obtain ⟨x, hx, hrespects⟩ := (leafLogic_respects S).leaf hc (hwork hc h _) rounds register
    rw [hx]
    exact ofEffect hrespects
  nested context _ _ _ ih := within context (ih context rfl)
  test _ register h _ := ofEffect (htest h register _)
  fetch _ _ _ register _ h _ := ofEffect (hfetch h _ register)

/-- The work of a leaf respects the contents: that of a unit as is asked of it, that on memory as
shown above. -/
theorem Component.SeesContents.workKeeps {c : Component} (hc : c.IsLeaf) (h : c.SeesContents)
    (e : Evaluator) : c.WorkKeeps (fun {_} x => x.Respects World.Same) e := by
  cases c with
  | executable => exact fun data => h data e
  | setMemory name key =>
    exact fun value => World.onMemory_respects _ (Memory.set_respects key value)
  | getMemory => exact fun _ => World.onMemory_respects _ (Memory.get_respects _ _ _ _)
  | deleteMemory name keys =>
    exact ⟨World.onMemory_respects _ Memory.flush_respects,
      World.onMemory_respects _ (Memory.deleteAll_respects keys)⟩
  | action | exit | log => trivial
  | schema | loop | forEach | filter | switch | evaluator => cases hc

/-- A tree whose units see contents only ends in the same way in worlds that hold the same, and
leaves worlds that hold the same. -/
theorem Component.respects_same {c : Component}
    (h : c.Every Component.SeesContents Predicate.SeesContents) (rounds : Nat) (e : Evaluator)
    (register : Record) : (c.run rounds e register).Respects World.Same :=
  (Process.Respects.simulation (R := Predicate.SeesContents) rounds
    Component.SeesContents.workKeeps (fun h => h)
    fun _ _ _ => World.onMemory_respects _ (Memory.get_respects _ _ _ _)).run c h rfl register

/-- An executable that counts in its evaluator's memory sees contents only. -/
theorem tally_respects (data : Record) (e : Evaluator) :
    (Stock.tally.invoke data e).Respects World.Same := by
  have hread := World.onMemory_respects e.memory (Store.retrieve_respects "calls")
  refine (hread.tryCatch fun _ => .pure _).bind fun calls => ?_
  have hset (register : Record) := (leafLogic_respects World.Same).setMemory
    (fun value => World.onMemory_respects e.memory (Memory.set_respects "calls" value)) register
    (some "count")
  exact (hset _).bind fun _ => .pure _

end Pipeline
