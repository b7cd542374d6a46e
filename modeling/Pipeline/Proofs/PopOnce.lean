import Pipeline.Proofs.FailedPop
import Pipeline.Proofs.StoreFrame

/-!
# What is popped is given once

A pop takes an entry out of memory wherever it is: out of the cache, and out of the directory,
be the file one that the store has written or one that was there before it.  The key is then
*gone* (`Store.Gone`).  No request but one that stores a value under the key brings it back
(`Memory.Request.gone_leaves`), so a value is found again only after another one was stored
(`popped_entry_given_once`).

Copying entries, with or without taking them out, puts nothing into memory: `Store.Shrinks`
holds of the memory before and after it.
-/

namespace Pipeline

open Effect (Keeps)

/-! ## Keys without an entry in files -/

namespace FileStore

variable {key key' : String} {value : Value} {fs : Files} {s : FileStore} {error : MemoryError}

/-- A key that is neither cached nor has a file, though it could have one. -/
structure Gone (key : String) (p : FileStore × Files) : Prop where
  uncached : p.1.cache.get? key = none
  valid : validKey key = true
  noText : fileText p.1.directory p.2 key = .error .notFound

theorem fileText_of_removeFile (h : (removeFile key (s, fs)).result = .ok ()) :
    ∃ fs', removeFile key (s, fs) = ⟨.ok (), [], (s, fs')⟩ ∧ validKey key = true ∧
      fileText s.directory fs' key = .error .notFound := by
  obtain ⟨home, place, hhome, hplace⟩ | ⟨hvalid, hplace⟩ := place_of_removeFile h
  · refine ⟨_, removeFile_of_fileAt hplace, hplace.valid, ?_⟩
    rw [fileText_drop hplace hhome, if_pos rfl]
  · refine ⟨fs, removeFile_of_no_directory hvalid hplace, hvalid, ?_⟩
    rw [fileText, hplace]
    rfl

/-- A file that cannot be removed cannot be read. -/
theorem unreadable_of_removeFile (h : (removeFile key (s, fs)).result = .error error)
    (hvalid : validKey key = true) : ∃ fault, fileText s.directory fs key = .error fault := by
  cases htext : fileText s.directory fs key with
  | error fault => exact ⟨fault, rfl⟩
  | ok text =>
    -- A file whose text can be read is no directory, so it could have been removed.
    exfalso
    cases hplace : fs.locateIn s.directory (fileName key) with
    | error fault =>
      rw [fileText, hplace] at htext
      cases htext
    | ok place =>
      have hclear : fs.at? place.names ≠ some .directory := by
        intro hheld
        rw [fileText, hplace] at htext
        change fs.readAt place = .ok text at htext
        rw [Files.readAt, hheld] at htext
        cases htext
      rw [removeFile_of_fileAt ⟨hvalid, hplace, hclear⟩] at h
      cases h

/-- A key that could not be taken out, and has left the cache, cannot be read any more. -/
theorem unreadable_of_delete (h : (delete key (s, fs)).result = .error error) :
    (∀ value, (retrieve key ({ s with cache := s.cache.erase key }, fs)).result ≠ .ok value) ∧
      FileStore.contains { s with cache := s.cache.erase key } fs key = false := by
  have hdropped : (s.cache.erase key).get? key = none := by
    rw [Ascending.get?_erase, if_pos rfl]
  obtain ⟨events, hrun⟩ :=
    retrieve_of_not_cached (s := { s with cache := s.cache.erase key }) fs hdropped
  rw [hrun, contains_eq, Ascending.contains, hdropped]
  cases hvalid : validKey key with
  | false => exact ⟨fun value hread => (by cases hread), rfl⟩
  | true =>
    have hremove : ∃ error,
        (removeFile key ({ s with cache := s.cache.erase key }, fs)).result = .error error := by
      cases hresult : (removeFile key ({ s with cache := s.cache.erase key }, fs)).result with
      | error error => exact ⟨error, rfl⟩
      | ok _ =>
        rw [delete_eq, Effect.bind_of_ok (update_apply _),
          Effect.bind_of_ok (Run.eq_of_result hresult)] at h
        cases h
    obtain ⟨_, hremove⟩ := hremove
    obtain ⟨fault, htext⟩ := unreadable_of_removeFile hremove hvalid
    rw [htext]
    refine ⟨fun value hread => ?_, rfl⟩
    cases fault <;> cases hread

theorem update_keeps_gone {f : FileStore → FileStore}
    (hdirectory : ∀ s, (f s).directory = s.directory)
    (hcache : ∀ s, s.cache.get? key = none → (f s).cache.get? key = none) :
    Keeps (Gone key) (update f) := by
  rintro ⟨s, fs⟩ h
  refine ⟨hcache s h.uncached, h.valid, ?_⟩
  change fileText (f s).directory fs key = .error .notFound
  rw [hdirectory]
  exact h.noText

theorem removeFile_keeps_gone (key' : String) : Keeps (Gone key) (removeFile key') := by
  rintro ⟨s, fs⟩ h
  cases hresult : (removeFile key' (s, fs)).result with
  | error error =>
    rw [removeFile_of_error hresult]
    exact h
  | ok _ =>
    by_cases hkey : key = key'
    · subst hkey
      obtain ⟨fs', hrun, _, htext⟩ := fileText_of_removeFile hresult
      rw [hrun]
      exact ⟨h.uncached, h.valid, htext⟩
    · obtain ⟨fs', hrun, htext⟩ := removeFile_of_result hresult
      rw [hrun]
      exact ⟨h.uncached, h.valid, (htext key hkey).trans h.noText⟩

theorem removeFiles_keeps_gone (keys : List String) : Keeps (Gone key) (removeFiles keys) := by
  induction keys with
  | nil => exact Keeps.pure _
  | cons first rest ih => exact (removeFile_keeps_gone first).bind fun _ => ih

theorem delete_keeps_gone (key' : String) : Keeps (Gone key) (delete key') := by
  have hfirst : Keeps (Gone key) (update fun s => { s with cache := s.cache.erase key' }) := by
    refine update_keeps_gone (fun _ => rfl) fun s h => ?_
    rw [Ascending.get?_erase, h, ite_self]
  refine hfirst.bind fun _ => (removeFile_keeps_gone key').bind fun _ => ?_
  exact update_keeps_gone (fun _ => rfl) fun _ h => h

theorem flush_keeps_gone : Keeps (Gone key) flush := by
  refine Keeps.get.bind fun ⟨s, _⟩ => ?_
  have hfirst : Keeps (Gone key) (update fun s => { s with cache := ∅, written := ∅ }) :=
    update_keeps_gone (fun _ => rfl) fun _ _ => rfl
  exact hfirst.bind fun _ => removeFiles_keeps_gone _

/-- Adding another key leaves a key without an entry. -/
theorem add_keeps_gone (hne : key ≠ key') (value : Value) : Keeps (Gone key) (add key' value) := by
  rintro ⟨s, fs⟩ h
  cases hresult : (add key' value (s, fs)).result with
  | error error =>
    rw [add_of_error hresult]
    exact h
  | ok _ =>
    obtain ⟨place, hplace⟩ := fileAt_of_add hresult
    obtain ⟨_, _, home, hhome, _⟩ := Files.locateIn_eq_ok.mp hplace.path
    rw [add_of_fileAt hplace]
    refine ⟨?_, h.valid, ?_⟩
    · rw [Ascending.get?_insert, if_neg hne]
      exact h.uncached
    · rw [fileText_put hplace hhome, if_neg hne]
      exact h.noText

/-- A key that was taken out has no entry, wherever it had one. -/
theorem gone_of_delete (h : (delete key (s, fs)).result = .ok ()) :
    Gone key (delete key (s, fs)).state := by
  rw [delete_eq, Effect.bind_of_ok (update_apply _)] at h ⊢
  obtain ⟨_, events, _, hrun, _⟩ := Effect.ok_of_bind h
  obtain ⟨fs', hremove, hvalid, htext⟩ :=
    fileText_of_removeFile (s := { s with cache := s.cache.erase key }) (congrArg Run.result hrun)
  rw [Effect.bind_of_ok hremove]
  refine ⟨?_, hvalid, htext⟩
  change (s.cache.erase key).get? key = none
  rw [Ascending.get?_erase, if_pos rfl]

end FileStore

/-! ## Keys without an entry in memory -/

namespace Store

variable {key key' : String} {value : Value} {before after : Store × Files}

/-- There is no entry for the key, and reading it says so. -/
structure Gone (key : String) (s : Store × Files) : Prop where
  reads : (retrieve key s).result = .error (.notFound key)
  absent : s.1.contains s.2 key = false

theorem gone_inProcess {entries : Record} {fs : Files} :
    Gone key (.inProcess entries, fs) ↔ entries.get? key = none := by
  constructor
  · intro h
    have habsent : entries.contains key = false := h.absent
    simpa [Ascending.contains] using habsent
  · intro h
    refine ⟨?_, ?_⟩
    · rw [retrieve_of_no_entry h]
    · change entries.contains key = false
      rw [Ascending.contains, h]
      rfl

theorem gone_inFiles {s : FileStore} {fs : Files} :
    Gone key (.inFiles s, fs) ↔ FileStore.Gone key (s, fs) := by
  constructor
  · -- Reading says that there is no entry in one case of all: every other fault is told apart.
    intro h
    have hreads : (FileStore.retrieve key (s, fs)).result = .error (.notFound key) := h.reads
    cases hcache : s.cache.get? key with
    | some value =>
      rw [FileStore.retrieve_of_cached hcache] at hreads
      cases hreads
    | none =>
      obtain ⟨events, hrun⟩ := FileStore.retrieve_of_not_cached fs hcache
      rw [hrun] at hreads
      cases hvalid : FileStore.validKey key with
      | false =>
        rw [hvalid] at hreads
        cases hreads
      | true =>
        rw [hvalid, if_pos rfl] at hreads
        refine ⟨hcache, hvalid, ?_⟩
        cases htext : FileStore.fileText s.directory fs key with
        | error fault =>
          rw [htext] at hreads
          cases fault with
          | notFound => rfl
          | _ => cases hreads
        | ok text =>
          rw [htext, FileStore.readAs] at hreads
          cases hparse : Json.parse text with
          | ok value => rw [hparse] at hreads; cases hreads
          | error fault => rw [hparse] at hreads; cases hreads
  · intro h
    obtain ⟨events, hrun⟩ := FileStore.retrieve_of_not_cached fs h.uncached
    refine ⟨?_, ?_⟩
    · change (FileStore.retrieve key (s, fs)).result = _
      rw [hrun, h.valid, if_pos rfl, h.noText]
      rfl
    · change s.contains fs key = false
      rw [FileStore.contains_eq, Ascending.contains, h.uncached, h.noText]
      simp [Except.isOk, Except.toBool]

theorem act_keeps_gone {α : Type} {inProcess : Record → Except MemoryError (α × Record)}
    {inFiles : FileStore.Action α}
    (hprocess : ∀ entries answer, entries.get? key = none → inProcess entries = .ok answer →
      answer.2.get? key = none)
    (hfiles : Keeps (FileStore.Gone key) inFiles) : Keeps (Gone key) (act inProcess inFiles) := by
  rintro ⟨store, fs⟩ h
  cases store with
  | inProcess entries =>
    rw [gone_inProcess] at h
    simp only [act]
    cases hanswer : inProcess entries with
    | ok answer => exact gone_inProcess.mpr (hprocess entries answer h hanswer)
    | error error => exact gone_inProcess.mpr h
  | inFiles s => exact gone_inFiles.mpr (hfiles (gone_inFiles.mp h))

theorem add_keeps_gone (hne : key ≠ key') (value : Value) : Keeps (Gone key) (add key' value) := by
  refine act_keeps_gone (fun entries answer h hanswer => ?_) (FileStore.add_keeps_gone hne value)
  cases hanswer
  rw [Ascending.get?_insert, if_neg hne, h]

theorem delete_keeps_gone (key' : String) : Keeps (Gone key) (delete key') := by
  refine act_keeps_gone (fun entries answer h hanswer => ?_) (FileStore.delete_keeps_gone key')
  cases hanswer
  rw [Ascending.get?_erase, h, ite_self]

theorem flush_keeps_gone : Keeps (Gone key) flush := by
  refine act_keeps_gone (fun entries answer _ hanswer => ?_) FileStore.flush_keeps_gone
  cases hanswer
  rfl

theorem gone_of_delete (h : (delete key before).result = .ok ()) :
    Gone key (delete key before).state := by
  obtain ⟨store, fs⟩ := before
  cases store with
  | inProcess entries =>
    refine gone_inProcess.mpr ?_
    rw [Ascending.get?_erase, if_pos rfl]
  | inFiles s => exact gone_inFiles.mpr (FileStore.gone_of_delete h)

theorem add_of_error {error : MemoryError} (h : (add key value before).result = .error error) :
    (add key value before).state = before := by
  obtain ⟨store, fs⟩ := before
  cases store with
  | inProcess entries => cases h
  | inFiles s => simp only [add, act, FileStore.add_of_error h]

/-! ## Nothing put in -/

/-- Whatever is read, is there or is in a file afterwards was so before. -/
structure Shrinks (before after : Store × Files) : Prop where
  reads : ∀ key value, (retrieve key after).result = .ok value →
    (retrieve key before).result = .ok value
  there : ∀ key, after.1.contains after.2 key = true → before.1.contains before.2 key = true
  files : Files.Grows after.2 before.2

theorem Shrinks.refl (s : Store × Files) : Shrinks s s :=
  ⟨fun _ _ h => h, fun _ h => h, .refl _⟩

theorem Shrinks.trans {mid : Store × Files} (h : Shrinks before mid) (h' : Shrinks mid after) :
    Shrinks before after where
  reads key value hread := h.reads key value (h'.reads key value hread)
  there key hthere := h.there key (h'.there key hthere)
  files := h'.files.trans h.files

/-- Taking a key out leaves the entry of each other key, and none of its own. -/
theorem entry_of_delete (key key' : String) (before : Store × Files) :
    SameEntry key' before (delete key before).state ∨
      (∀ value, (retrieve key' (delete key before).state).result ≠ .ok value) ∧
        (delete key before).state.1.contains (delete key before).state.2 key' = false := by
  cases hresult : (delete key before).result with
  | ok _ =>
    by_cases hkey : key' = key
    · subst hkey
      have hgone := gone_of_delete hresult
      refine .inr ⟨fun value hread => ?_, hgone.absent⟩
      rw [hgone.reads] at hread
      cases hread
    · exact .inl (sameEntry_delete hresult hkey)
  | error error =>
    obtain ⟨store, fs⟩ := before
    cases store with
    | inProcess entries => cases hresult
    | inFiles s =>
      have hfailed : (FileStore.delete key (s, fs)).result = .error error := hresult
      simp only [delete, act, FileStore.delete_of_error hfailed]
      by_cases hkey : key' = key
      · subst hkey
        exact .inr (FileStore.unreadable_of_delete hfailed)
      · refine .inl (SameEntry.inFiles rfl ?_ rfl)
        rw [Ascending.get?_erase, if_neg hkey]

theorem delete_shrinks (key : String) (before : Store × Files) :
    Shrinks before (delete key before).state where
  reads key' value hread := by
    rcases entry_of_delete key key' before with hsame | ⟨hnone, _⟩
    · rw [← hsame.reads]
      exact hread
    · exact absurd hread (hnone value)
  there key' hthere := by
    rcases entry_of_delete key key' before with hsame | ⟨_, hnone⟩
    · rw [← hsame.there]
      exact hthere
    · rw [hnone] at hthere
      cases hthere
  files := by
    obtain ⟨store, fs⟩ := before
    cases store with
    | inProcess entries => exact .refl fs
    | inFiles s =>
      have hshrinks : Files.Grows (FileStore.delete key (s, fs)).state.2 fs :=
        FileStore.delete_shrinks key fs (Files.Grows.refl (s, fs).2)
      simp only [delete, act]
      exact hshrinks

end Store

/-! ## Copying entries -/

namespace Memory

variable {key : String} {default register : Record} {identifiers front back : List Identifier}
variable {identifier : Identifier} {delete : Bool} {s : Store × Files}

/-- What removals keep, a `get` keeps. -/
theorem get_keeps {P : Store × Files → Prop} (hdelete : ∀ key, Keeps P (Store.delete key))
    (default : Record) (delete : Bool) (identifiers : List Identifier) (register : Record) :
    Keeps P (get default delete identifiers register) := by
  induction identifiers generalizing register with
  | nil => exact Keeps.pure _
  | cons identifier rest ih =>
    have hlookup : Keeps P (lookup identifier.memoryKey default) :=
      Keeps.of_state_eq fun s => lookup_state _ _ s
    refine hlookup.bind fun value => ?_
    cases delete with
    | false => exact (Keeps.pure _).bind fun _ => ih _
    | true => exact (hdelete _).bind fun _ => ih _

theorem get_keeps_gone (default : Record) (delete : Bool) (identifiers : List Identifier)
    (register : Record) : Keeps (Store.Gone key) (get default delete identifiers register) :=
  get_keeps Store.delete_keeps_gone default delete identifiers register

/-- A `get` puts nothing in. -/
theorem get_shrinks (default : Record) (delete : Bool) (identifiers : List Identifier)
    (register : Record) (s : Store × Files) :
    Store.Shrinks s (get default delete identifiers register s).state :=
  get_keeps (fun key mid h => h.trans (Store.delete_shrinks key mid)) default delete identifiers
    register (Store.Shrinks.refl s)

/-- A `get` of two lists is that of the second after that of the first. -/
theorem get_append (default : Record) (delete : Bool) (front back : List Identifier)
    (register : Record) :
    get default delete (front ++ back) register =
      get default delete front register >>= get default delete back := by
  induction front generalizing register with
  | nil => rfl
  | cons identifier rest ih =>
    cases delete with
    | false =>
      rw [List.cons_append, get_copy_cons, get_copy_cons, Effect.bind_assoc]
      simp only [ih]
    | true =>
      rw [List.cons_append, get_pop_cons, get_pop_cons, Effect.bind_assoc]
      simp only [Effect.bind_assoc, ih]

/-- The first part of a list that is copied is copied. -/
theorem get_front_of_ok {register' : Record}
    (h : (get default delete (front ++ back) register s).result = .ok register') :
    ∃ copied, (get default delete front register s).result = .ok copied := by
  rw [get_append] at h
  obtain ⟨copied, events, mid, hfront, _⟩ := Effect.ok_of_bind h
  exact ⟨copied, congrArg Run.result hfront⟩

/-- The keys of a pop that succeeds are gone. -/
theorem gone_of_pop {register' : Record}
    (h : (get default true identifiers register s).result = .ok register')
    (hkey : key ∈ identifiers.map Identifier.memoryKey) :
    Store.Gone key (get default true identifiers register s).state := by
  induction identifiers generalizing register s with
  | nil => cases hkey
  | cons identifier rest ih =>
    rw [get_pop_cons] at h ⊢
    obtain ⟨value, events, mid, hread, h⟩ := Effect.ok_of_bind h
    obtain ⟨_, events', mid', hdelete, h⟩ := Effect.ok_of_bind h
    rw [Effect.bind_of_ok hread, Run.after_state, Effect.bind_of_ok hdelete, Run.after_state]
    rcases List.mem_cons.mp hkey with rfl | hkey
    · have hgone := Store.gone_of_delete (congrArg Run.result hdelete)
      rw [hdelete] at hgone
      exact get_keeps_gone default true rest _ hgone
    · exact ih h hkey

/-- A key that is gone is read from the defaults only. -/
theorem lookup_of_gone (h : Store.Gone key s) (hdefault : default.get? key = none) :
    (lookup key default s).result = .error (.notFound key) := by
  rw [lookup, Effect.tryCatch_of_error (Run.eq_of_result h.reads), hdefault]
  rfl

/-- A `get` of a key that is gone and has no default fails with that key, unless it failed
before it came to the key. -/
theorem get_of_gone (h : Store.Gone key s) (hkey : identifier.memoryKey = key)
    (hdefault : default.get? key = none) (delete : Bool) (front back : List Identifier)
    (register : Record) :
    (get default delete (front ++ identifier :: back) register s).result =
      (get default delete front register s).result.bind fun _ => .error (.notFound key) := by
  rw [get_append]
  have hgone := get_keeps_gone default delete front register h
  cases hfront : get default delete front register s with
  | mk result events mid =>
    rw [hfront] at hgone
    cases result with
    | error error => rw [Effect.bind_of_error hfront]; rfl
    | ok register' =>
      rw [Effect.bind_of_ok hfront, Run.after_result, get, hkey,
        Effect.bind_of_error (Run.eq_of_result (lookup_of_gone hgone hdefault))]
      rfl

/-! ## Requests -/

/-- What a pipeline asks of its memory. -/
inductive Request
  | set (key : String) (value : Value)
  | get (identifiers : List Identifier) (default : Record) (delete : Bool) (register : Record)
  | delete (key : String)
  | flush

namespace Request

/-- Do what is asked. -/
def run : Request → Store.Action Unit
  | .set key value => Memory.set key value
  | .get identifiers default delete register => do
    let _ ← Memory.get default delete identifiers register
    pure ()
  | .delete key => Memory.delete key
  | .flush => Memory.flush

/-- What some requests, made one after another, leave of memory and the files.  One that fails
does not keep the others from being made. -/
def leaves : List Request → Store × Files → Store × Files
  | [], s => s
  | request :: rest, s => leaves rest (request.run s).state

/-- A value is stored under the key. -/
def Stores (key : String) (request : Request) (s : Store × Files) : Prop :=
  ∃ value, request = .set key value ∧ (request.run s).result = .ok ()

/-- One of some requests, made one after another, stores a value under the key. -/
def SomeStores (key : String) : List Request → Store × Files → Prop
  | [], _ => False
  | request :: rest, s => request.Stores key s ∨ SomeStores key rest (request.run s).state

/-- The request is a pop that succeeds, and finds a value stored for the identifier at the place,
which has the key.  The identifiers in front of it were popped by then. -/
def DeliversAt (key : String) (place : Nat) (request : Request) (s : Store × Files) : Prop :=
  ∃ identifiers default register identifier value,
    request = .get identifiers default true register ∧ (request.run s).result = .ok () ∧
    identifiers[place]? = some identifier ∧ identifier.memoryKey = key ∧
    (Store.retrieve key (Memory.get default true (identifiers.take place) register s).state).result
      = .ok value

variable {requests : List Request} {request : Request}

theorem gone_run (h : Store.Gone key s) (hstores : ¬ request.Stores key s) :
    Store.Gone key (request.run s).state := by
  cases request with
  | set key' value =>
    by_cases hkey : key = key'
    · subst hkey
      cases hadd : Store.add key value s with
      | mk result events mid =>
        cases result with
        | ok _ =>
          refine absurd ⟨value, rfl, ?_⟩ hstores
          rw [run, Memory.set, Effect.bind_of_ok hadd]
          rfl
        | error error =>
          have hmid := Store.add_of_error (congrArg Run.result hadd)
          rw [hadd] at hmid
          rw [run, Memory.set, Effect.bind_of_error hadd]
          exact hmid ▸ h
    · exact ((Store.add_keeps_gone hkey value).bind fun _ =>
        Keeps.get.bind fun _ => Keeps.emit _) h
  | get identifiers default delete register =>
    exact ((get_keeps_gone default delete identifiers register).bind fun _ => Keeps.pure _) h
  | delete key' => exact Store.delete_keeps_gone key' h
  | flush =>
    exact (Keeps.get.bind fun _ => Store.flush_keeps_gone.bind fun _ => Keeps.emit _) h

/-- Requests that store nothing under a key that is gone leave it so. -/
theorem gone_leaves (h : Store.Gone key s) (hstores : ¬ SomeStores key requests s) :
    Store.Gone key (leaves requests s) := by
  induction requests generalizing s with
  | nil => exact h
  | cons request rest ih =>
    have hrest : ¬ SomeStores key rest (request.run s).state := fun hrest => hstores (.inr hrest)
    exact ih (gone_run h fun hfirst => hstores (.inl hfirst)) hrest

/-- A request to copy entries ends as copying them does. -/
theorem run_get (identifiers : List Identifier) (default register : Record) (delete : Bool)
    (s : Store × Files) :
    (Request.get identifiers default delete register).run s =
      ⟨(Memory.get default delete identifiers register s).result.map fun _ => (),
        (Memory.get default delete identifiers register s).events,
        (Memory.get default delete identifiers register s).state⟩ := by
  rw [run]
  cases hget : Memory.get default delete identifiers register s with
  | mk result events mid =>
    cases result with
    | ok register' =>
      rw [Effect.bind_of_ok hget]
      exact congrArg (Run.mk _ · _) (List.append_nil events)
    | error error => exact Effect.bind_of_error hget

theorem get_of_run_ok (h : ((Request.get identifiers default delete register).run s).result = .ok ()) :
    ∃ register', (Memory.get default delete identifiers register s).result = .ok register' := by
  rw [run_get] at h
  cases hget : (Memory.get default delete identifiers register s).result with
  | ok register' => exact ⟨register', rfl⟩
  | error error =>
    rw [hget] at h
    cases h

/-- A key that a request has delivered is gone. -/
theorem gone_of_deliversAt {place : Nat} (h : request.DeliversAt key place s) :
    Store.Gone key (request.run s).state := by
  obtain ⟨identifiers, default, register, identifier, _, rfl, hok, hplace, rfl, _⟩ := h
  obtain ⟨register', hpop⟩ := get_of_run_ok hok
  rw [run_get]
  exact gone_of_pop hpop (List.mem_map_of_mem (List.mem_of_getElem? hplace))

/-- A key that is gone is not delivered. -/
theorem not_deliversAt_of_gone (h : Store.Gone key s) (place : Nat) :
    ¬ request.DeliversAt key place s := by
  rintro ⟨identifiers, default, register, _, _, _, _, _, _, hread⟩
  rw [(get_keeps_gone default true (identifiers.take place) register h).reads] at hread
  cases hread

/-- One request delivers a key at one place at most: the pops in front of a second one have
taken it out. -/
theorem not_deliversAt_twice {place place' : Nat} (hlt : place < place')
    (h : request.DeliversAt key place s) : ¬ request.DeliversAt key place' s := by
  rintro ⟨identifiers, default, register, _, _, rfl, hok, _, _, hread⟩
  obtain ⟨_, _, _, identifier, _, hrequest, _, hplace, rfl, _⟩ := h
  cases hrequest
  have hfront : identifier ∈ identifiers.take place' :=
    List.mem_of_getElem? ((List.getElem?_take_of_lt hlt).trans hplace)
  obtain ⟨_, hpop⟩ := get_of_run_ok hok
  rw [← List.take_append_drop place' identifiers] at hpop
  obtain ⟨_, hpop⟩ := get_front_of_ok hpop
  have hgone := gone_of_pop hpop (List.mem_map_of_mem hfront)
  rw [hgone.reads] at hread
  cases hread

end Request

end Memory

/-! ## The result -/

open Memory.Request

/-- A pop that succeeds leaves none of its keys in memory.  There is no entry for such a key,
and no `get` without a default for it succeeds, until a value is stored under it again.  So two
pops that each found a value under one key have a request between them that stored one, and a
pop that lists a key twice finds a value for it once at most.

No `get` puts a value in, be it a default that it has used. -/
theorem popped_entry_given_once (key : String) (s : Store × Files) :
    (∀ identifiers default register register',
      (Memory.get default true identifiers register s).result = .ok register' →
      key ∈ identifiers.map Identifier.memoryKey →
      ∀ requests after,
        ¬ SomeStores key requests (Memory.get default true identifiers register s).state →
        leaves requests (Memory.get default true identifiers register s).state = after →
        after.1.contains after.2 key = false ∧
        ∀ default delete front identifier back register,
          identifier.memoryKey = key → default.get? key = none →
          (Memory.get default delete (front ++ identifier :: back) register after).result =
            (Memory.get default delete front register after).result.bind
              fun _ => .error (.notFound key)) ∧
    (∀ (first second : Memory.Request) place place' between, first.DeliversAt key place s →
      second.DeliversAt key place' (leaves between (first.run s).state) →
      SomeStores key between (first.run s).state) ∧
    (∀ (request : Memory.Request) place place', request.DeliversAt key place s →
      request.DeliversAt key place' s → place = place') ∧
    ∀ identifiers default delete register,
      Store.Shrinks s (Memory.get default delete identifiers register s).state := by
  refine ⟨?_, ?_, ?_, ?_⟩
  · rintro identifiers default register register' hpop hkey requests _ hstores rfl
    have hgone := gone_leaves (Memory.gone_of_pop hpop hkey) hstores
    refine ⟨hgone.absent, ?_⟩
    intro default delete front identifier back register hidentifier hdefault
    exact Memory.get_of_gone hgone hidentifier hdefault delete front back register
  · intro first second place place' between hfirst hsecond
    refine Classical.byContradiction fun hstores => ?_
    exact not_deliversAt_of_gone (gone_leaves (gone_of_deliversAt hfirst) hstores) place' hsecond
  · intro request place place' h h'
    rcases Nat.lt_trichotomy place place' with hlt | heq | hgt
    · exact absurd h' (not_deliversAt_twice hlt h)
    · exact heq
    · exact absurd h (not_deliversAt_twice hgt h')
  · intro identifiers default delete register
    exact Memory.get_shrinks default delete identifiers register s

/-- A store that is seeded under a key which a file of its directory has too. -/
def doubledStore : Store × Files :=
  (.inFiles ⟨"memory", (∅ : Record).insert "old" .null, ∅⟩, foreignFiles)

/-- A list that has the key twice. -/
def oldTwice : List Identifier := [.same "old", .same "old"]

/-- A default for the key. -/
def oldDefault : Record := (∅ : Record).insert "old" (.bool false)

/-- What the store and the files are after the key is popped, twice. -/
def oldPopped : Store × Files := (Memory.get oldDefault true oldTwice ∅ doubledStore).state

theorem doubled_entry_given_once :
    (Memory.get oldDefault true oldTwice ∅ doubledStore).result = .ok oldDefault ∧
    oldPopped.1.contains oldPopped.2 "old" = false ∧
    (Memory.get ∅ false [.same "old"] ∅ (leaves [.set "other" .null, .flush] oldPopped)).result =
      .error (.notFound "old") ∧
    DeliversAt "old" 0 (.get oldTwice oldDefault true ∅) doubledStore ∧
    (∀ place, DeliversAt "old" place (.get oldTwice oldDefault true ∅) doubledStore → place = 0) ∧
    (∀ requests, DeliversAt "old" 0 (.get [.same "old"] ∅ true ∅)
        (leaves requests ((Memory.Request.get oldTwice oldDefault true ∅).run doubledStore).state) →
      SomeStores "old" requests
        ((Memory.Request.get oldTwice oldDefault true ∅).run doubledStore).state) ∧
    DeliversAt "old" 0 (.get [.same "old"] ∅ true ∅)
      (leaves [.set "old" (.bool true)]
        ((Memory.Request.get oldTwice oldDefault true ∅).run doubledStore).state) := by
  obtain ⟨hpopped, hbetween, honce, _⟩ := popped_entry_given_once "old" doubledStore
  have hpop : (Memory.get oldDefault true oldTwice ∅ doubledStore).result = .ok oldDefault := rfl
  have hmem : "old" ∈ oldTwice.map Identifier.memoryKey := .head _
  have hidle : ¬ SomeStores "old" [.set "other" .null, .flush] oldPopped := by
    simp [SomeStores, Stores]
  have hfirst : DeliversAt "old" 0 (.get oldTwice oldDefault true ∅) doubledStore :=
    ⟨_, _, _, .same "old", .null, rfl, rfl, rfl, rfl, rfl⟩
  have hsecond : DeliversAt "old" 0 (.get [.same "old"] ∅ true ∅)
      (leaves [.set "old" (.bool true)]
        ((Memory.Request.get oldTwice oldDefault true ∅).run doubledStore).state) :=
    ⟨_, _, _, .same "old", .bool true, rfl, rfl, rfl, rfl, rfl⟩
  obtain ⟨habsent, _⟩ := hpopped _ _ _ _ hpop hmem [] _ (fun h => h) rfl
  obtain ⟨_, hmisses⟩ := hpopped _ _ _ _ hpop hmem _ _ hidle rfl
  exact ⟨hpop, habsent, hmisses ∅ false [] (.same "old") [] ∅ rfl rfl, hfirst,
    fun place hplace => honce _ _ _ hplace hfirst, fun requests => hbetween _ _ _ _ _ hfirst,
    hsecond⟩

end Pipeline
