import Pipeline.Memory.FileStore
import Pipeline.Proofs.Dict
import Pipeline.Proofs.Files
import Pipeline.Proofs.Process

/-!
# Operations of a store in files

What each operation does to a key whose file can be had: `FileAt` says that the
key is valid, that its path leads to a place, and that no directory is there.  No
operation fails on such a key, save that reading a key without cache and file
gives `notFound`.

Each operation is followed first for any calls on its file (`addWith_of_written`,
`removeFileWith_of_kept` and their siblings), and nothing else unfolds it.

A file operation at the place of one key leaves the places of the others as they
were (`FileAt.put`, `FileAt.drop`), and changes whether there is a file for that
key only (`FileAt.hasFile_put`, `FileAt.hasFile_drop`).
-/

namespace Pipeline

namespace FileStore

variable {directory key key' : String} {value : Value} {fs : Files} {s : FileStore}
variable {place place' : Place} {keys : List String}

/-! ## The file of a key -/

/-- A key's file can be read, written and removed at a place. -/
structure FileAt (directory : String) (fs : Files) (key : String) (place : Place) : Prop where
  valid : validKey key = true
  path : fs.locateIn directory (fileName key) = .ok place
  clear : fs.at? place.names ≠ some .directory

/-- A key's file can be read, written and removed. -/
def Usable (directory : String) (fs : Files) (key : String) : Prop :=
  ∃ place, FileAt directory fs key place

/-- Whether there is a file for a key. -/
def hasFile (directory : String) (fs : Files) (key : String) : Bool :=
  match fs.locateIn directory (fileName key) with
  | .ok place => fs.isFileAt place
  | .error _ => false

/-- Two keys have two files. -/
theorem fileName_inj (h : fileName key = fileName key') : key = key' := by
  have hchars : key.toList ++ ".json".toList = key'.toList ++ ".json".toList := by
    simpa [fileName] using congrArg String.toList h
  exact String.toList_inj.mp (List.append_cancel_right hchars)

theorem fileName_ne_empty : fileName key ≠ "" := by
  simp [fileName]

namespace FileAt

theorem hasFile_iff (h : FileAt directory fs key place) :
    hasFile directory fs key = true ↔ ∃ text, fs.at? place.names = some (.file text) := by
  rw [hasFile, h.path]
  exact Files.isFileAt_of_slash (Files.locateIn_slash h.path)

theorem at?_eq_none (h : FileAt directory fs key place) (hno : hasFile directory fs key = false) :
    fs.at? place.names = none := by
  cases hheld : fs.at? place.names with
  | none => rfl
  | some held =>
    cases held with
    | directory => exact absurd hheld h.clear
    | file text =>
      rw [h.hasFile_iff.mpr ⟨text, hheld⟩] at hno
      cases hno

/-- Keys at one place are one key. -/
theorem inj (h : FileAt directory fs key place) (h' : FileAt directory fs key' place')
    (heq : place.names = place'.names) : key = key' :=
  fileName_inj (Files.locateIn_inj h.path h'.path heq)

/-- A change at the place of one key that puts no directory there keeps the places of
all keys. -/
theorem of_frame {fs' : Files} (h : FileAt directory fs key place)
    (h' : FileAt directory fs key' place')
    (hframe : ∀ other, other ≠ place.names → fs'.at? other = fs.at? other)
    (hclear : fs'.at? place.names ≠ some .directory) : FileAt directory fs' key' place' := by
  have hkeeps := Files.keepsDirectories_of_frame h.clear hframe
  refine ⟨h'.valid, Files.locateIn_of_keeps hkeeps h'.path, ?_⟩
  by_cases hplace : place'.names = place.names
  · rw [hplace]
    exact hclear
  · rw [hframe _ hplace]
    exact h'.clear

/-- Writing the file of one key keeps the files of all keys within reach. -/
theorem put (h : FileAt directory fs key place) (h' : FileAt directory fs key' place')
    (text : String) : FileAt directory (fs.put place.names (.file text)) key' place' := by
  have hroot := Files.locateIn_ne_nil h.path
  apply h.of_frame h'
  · intro other hother
    rw [Files.at?_put hroot, if_neg hother]
  · rw [Files.at?_put hroot, if_pos rfl]
    simp

/-- So does removing it. -/
theorem drop (h : FileAt directory fs key place) (h' : FileAt directory fs key' place') :
    FileAt directory (fs.drop place.names) key' place' := by
  have hroot := Files.locateIn_ne_nil h.path
  apply h.of_frame h'
  · intro other hother
    rw [Files.at?_drop hroot, if_neg hother]
  · rw [Files.at?_drop hroot, if_pos rfl]
    simp

theorem names_eq_iff (h : FileAt directory fs key place) (h' : FileAt directory fs key' place') :
    place'.names = place.names ↔ key' = key := by
  constructor
  · exact h'.inj h
  · intro hkey
    subst hkey
    rw [Except.ok.inj (h'.path.symm.trans h.path)]

theorem hasFile_put (h : FileAt directory fs key place) (h' : FileAt directory fs key' place')
    (text : String) :
    hasFile directory (fs.put place.names (.file text)) key' =
      (decide (key' = key) || hasFile directory fs key') := by
  rw [Bool.eq_iff_iff, Bool.or_eq_true, decide_eq_true_eq, (h.put h' text).hasFile_iff,
    h'.hasFile_iff, Files.at?_put (Files.locateIn_ne_nil h.path)]
  by_cases hkey : key' = key
  · simp [(h.names_eq_iff h').mpr hkey, hkey]
  · simp [mt (h.names_eq_iff h').mp hkey, hkey]

theorem hasFile_drop (h : FileAt directory fs key place) (h' : FileAt directory fs key' place') :
    hasFile directory (fs.drop place.names) key' =
      (decide (key' ≠ key) && hasFile directory fs key') := by
  rw [Bool.eq_iff_iff, Bool.and_eq_true, decide_eq_true_eq, (h.drop h').hasFile_iff,
    h'.hasFile_iff, Files.at?_drop (Files.locateIn_ne_nil h.path)]
  by_cases hkey : key' = key
  · simp [(h.names_eq_iff h').mpr hkey, hkey]
  · simp [mt (h.names_eq_iff h').mp hkey, hkey]

end FileAt

/-! ## Changes with any file calls -/

section

variable {calls : FileCalls} {left : Files} {fault : FileFault}

theorem update_apply (f : FileStore → FileStore) :
    update f (s, fs) = ⟨.ok (), [], (f s, fs)⟩ := rfl

theorem filePath_of_valid (h : validKey key = true) :
    s.filePath key = .ok (Files.join s.directory (fileName key)) := by
  rw [filePath, if_pos h]

theorem filePath_of_invalid (h : validKey key = false) :
    s.filePath key = .error (.invalidKey key) := by
  rw [filePath, h]
  rfl

/-- A key that can name no file is refused before any call. -/
theorem addWith_of_invalid (h : validKey key = false) :
    addWith calls key value (s, fs) = ⟨.error (.invalidKey key), [], (s, fs)⟩ := by
  simp only [addWith, Effect.get_bind, filePath_of_invalid h, Effect.ofExcept_error_bind]

/-- The file was written, and the key is noted and cached. -/
theorem addWith_of_written (hvalid : validKey key = true)
    (h : calls.writeIn fs s.directory (fileName key) (Json.render value) = (left, .ok ())) :
    addWith calls key value (s, fs) =
      ⟨.ok (), [],
        ({ s with written := s.written.insert key (), cache := s.cache.insert key value },
          left)⟩ := by
  simp only [addWith, Effect.get_bind, filePath_of_valid hvalid, Effect.ofExcept_ok_bind, h]
  rfl

/-- The file could not be written. -/
theorem addWith_of_unwritten (hvalid : validKey key = true)
    (h : calls.writeIn fs s.directory (fileName key) (Json.render value) =
      (left, .error fault)) :
    addWith calls key value (s, fs) = ⟨.error (.file key fault), [], (s, left)⟩ := by
  simp only [addWith, Effect.get_bind, filePath_of_valid hvalid, Effect.ofExcept_ok_bind, h]
  rfl

theorem removeFileWith_of_invalid (h : validKey key = false) :
    removeFileWith calls key (s, fs) = ⟨.error (.invalidKey key), [], (s, fs)⟩ := by
  simp only [removeFileWith, Effect.get_bind, filePath_of_invalid h, Effect.ofExcept_error_bind]

/-- The file was removed, or there was none. -/
theorem removeFileWith_of_removed (hvalid : validKey key = true)
    (h : calls.removeIn fs s.directory (fileName key) = (left, .ok ()) ∨
      calls.removeIn fs s.directory (fileName key) = (left, .error .notFound)) :
    removeFileWith calls key (s, fs) = ⟨.ok (), [], (s, left)⟩ := by
  rcases h with h | h <;>
    simp only [removeFileWith, Effect.get_bind, filePath_of_valid hvalid,
      Effect.ofExcept_ok_bind, h] <;> rfl

/-- The file could not be removed. -/
theorem removeFileWith_of_kept (hvalid : validKey key = true)
    (h : calls.removeIn fs s.directory (fileName key) = (left, .error fault))
    (hfault : fault ≠ .notFound) :
    removeFileWith calls key (s, fs) = ⟨.error (.file key fault), [], (s, left)⟩ := by
  simp only [removeFileWith, Effect.get_bind, filePath_of_valid hvalid, Effect.ofExcept_ok_bind, h]
  cases fault
  case notFound => exact absurd rfl hfault
  all_goals rfl

/-- How a change of a key's file fails, and the files it leaves.  The key cannot name a file,
and they are as they were; or the call on the file failed, and they are as it left them. -/
inductive Refused (key : String) (fs : Files) (call : Files × Except FileFault Unit) :
    MemoryError → Files → Prop
  | key : validKey key = false → Refused key fs call (.invalidKey key) fs
  | call {fault : FileFault} {left : Files} :
      validKey key = true → call = (left, .error fault) →
      Refused key fs call (.file key fault) left

/-- Removing a file, whether it fails or not, changes nothing but the files. -/
theorem removeFileWith_cases (calls : FileCalls) (key : String) (s : FileStore) (fs : Files) :
    (∃ left, removeFileWith calls key (s, fs) = ⟨.ok (), [], (s, left)⟩) ∨
      ∃ error left, removeFileWith calls key (s, fs) = ⟨.error error, [], (s, left)⟩ ∧
        Refused key fs (calls.removeIn fs s.directory (fileName key)) error left := by
  cases hvalid : validKey key with
  | false => exact .inr ⟨_, fs, removeFileWith_of_invalid hvalid, .key hvalid⟩
  | true =>
    cases hcall : calls.removeIn fs s.directory (fileName key) with
    | mk left removed =>
      cases removed with
      | ok _ => exact .inl ⟨left, removeFileWith_of_removed hvalid (.inl hcall)⟩
      | error fault =>
        by_cases hfault : fault = .notFound
        · subst hfault
          exact .inl ⟨left, removeFileWith_of_removed hvalid (.inr hcall)⟩
        · exact .inr ⟨_, left, removeFileWith_of_kept hvalid hcall hfault, .call hvalid rfl⟩

/-- Taking an entry out ends as the removal of its file does. -/
theorem deleteWith_of_removed
    (h : removeFileWith calls key ({ s with cache := s.cache.erase key }, fs) =
      ⟨.ok (), [], ({ s with cache := s.cache.erase key }, left)⟩) :
    deleteWith calls key (s, fs) =
      ⟨.ok (), [],
        ({ s with cache := s.cache.erase key, written := s.written.erase key }, left)⟩ := by
  rw [deleteWith, Effect.bind_of_ok (update_apply _), Effect.bind_of_ok h]
  rfl

/-- A flush clears the store first, and then removes the files of the keys that were written. -/
theorem flushWith_apply (calls : FileCalls) (s : FileStore) (fs : Files) :
    flushWith calls (s, fs) =
      removeFilesWith calls s.written.keys ({ s with cache := ∅, written := ∅ }, fs) := by
  simp only [flushWith, Effect.get_bind]
  rw [Effect.bind_of_ok (update_apply _)]
  rfl

end

/-! ## The operations -/

theorem delete_eq (key : String) : delete key = (do
    update fun s => { s with cache := s.cache.erase key }
    removeFile key
    update fun s => { s with written := s.written.erase key }) := rfl

theorem removeFiles_cons (key : String) (rest : List String) :
    removeFiles (key :: rest) = (do
      removeFile key
      removeFiles rest) := rfl

theorem flush_apply (s : FileStore) (fs : Files) :
    flush (s, fs) = removeFiles s.written.keys ({ s with cache := ∅, written := ∅ }, fs) :=
  flushWith_apply .willing s fs

/-- Adding a key whose file can be had writes it. -/
theorem add_of_fileAt (h : FileAt s.directory fs key place) :
    add key value (s, fs) =
      ⟨.ok (), [],
        ({ s with written := s.written.insert key (), cache := s.cache.insert key value },
          fs.put place.names (.file (Json.render value)))⟩ := by
  refine addWith_of_written h.valid ?_
  rw [FileCalls.writeIn_willing, h.path]
  exact congrArg (FileCalls.answer fs)
    (Files.writeAt_of_ne_directory (Files.locateIn_slash h.path) h.clear)

theorem retrieve_of_cached (h : s.cache.get? key = some value) :
    retrieve key (s, fs) = ⟨.ok value, [], (s, fs)⟩ := by
  simp only [retrieve, Effect.get_bind, h]
  rfl

/-- A key without cache and file is not found. -/
theorem retrieve_of_no_file (hcache : s.cache.get? key = none)
    (h : FileAt s.directory fs key place) (hno : hasFile s.directory fs key = false) :
    retrieve key (s, fs) = ⟨.error (.notFound key), [], (s, fs)⟩ := by
  have hread : fs.readAt place = .error .notFound := by
    rw [Files.readAt, h.at?_eq_none hno]
  simp only [retrieve, Effect.get_bind, hcache, filePath_of_valid h.valid, Effect.ofExcept_ok_bind]
  rw [h.path]
  simp only [bind, Except.bind, hread]
  rfl

theorem removeFile_of_fileAt (h : FileAt s.directory fs key place) :
    removeFile key (s, fs) = ⟨.ok (), [], (s, fs.drop place.names)⟩ := by
  have hremove : FileCalls.willing.removeIn fs s.directory (fileName key) =
      FileCalls.answer fs (fs.removeAt place) := by
    rw [FileCalls.removeIn_willing, h.path]
    rfl
  refine removeFileWith_of_removed h.valid ?_
  rw [hremove]
  cases hheld : fs.at? place.names with
  | none =>
    rw [Files.removeAt_of_none hheld, Files.drop_eq_self hheld]
    exact .inr rfl
  | some held =>
    cases held with
    | directory => exact absurd hheld h.clear
    | file text =>
      rw [Files.removeAt_of_file (Files.locateIn_slash h.path) hheld]
      exact .inl rfl

/-- Removing a key whose file can be had takes it from all three places. -/
theorem delete_of_fileAt (h : FileAt s.directory fs key place) :
    delete key (s, fs) =
      ⟨.ok (), [],
        ({ s with cache := s.cache.erase key, written := s.written.erase key },
          fs.drop place.names)⟩ := by
  have hremove : removeFile key ({ s with cache := s.cache.erase key }, fs) = _ :=
    removeFile_of_fileAt h
  exact deleteWith_of_removed hremove

/-- Removing the files of usable keys takes away those files and no other. -/
theorem removeFiles_of_usable (h : ∀ key ∈ keys, Usable s.directory fs key) :
    ∃ fs', removeFiles keys (s, fs) = ⟨.ok (), [], (s, fs')⟩ ∧
      ∀ key, Usable s.directory fs key → Usable s.directory fs' key ∧
        hasFile s.directory fs' key = (decide (key ∉ keys) && hasFile s.directory fs key) := by
  induction keys generalizing fs with
  | nil => exact ⟨fs, rfl, fun key hkey => ⟨hkey, by simp⟩⟩
  | cons first rest ih =>
    obtain ⟨place, hfirst⟩ := h first (by simp)
    have hrest : ∀ key ∈ rest, Usable s.directory (fs.drop place.names) key := by
      intro key hmem
      obtain ⟨place', hkey⟩ := h key (by simp [hmem])
      exact ⟨place', hfirst.drop hkey⟩
    obtain ⟨fs', hrun, hleft⟩ := ih hrest
    refine ⟨fs', ?_, ?_⟩
    · rw [removeFiles_cons, Effect.bind_of_ok (removeFile_of_fileAt hfirst), hrun]
      rfl
    · intro key ⟨place', hkey⟩
      obtain ⟨husable, hfile⟩ := hleft key ⟨place', hfirst.drop hkey⟩
      refine ⟨husable, ?_⟩
      rw [hfile, hfirst.hasFile_drop hkey, Bool.eq_iff_iff]
      simp only [Bool.and_eq_true, decide_eq_true_eq, List.mem_cons, not_or]
      rw [← and_assoc, and_comm (a := key ∉ rest)]

/-- Flushing takes away the files of the written keys and no other. -/
theorem flush_of_usable (h : ∀ key, s.written.contains key = true → Usable s.directory fs key) :
    ∃ fs', flush (s, fs) = ⟨.ok (), [], ({ s with cache := ∅, written := ∅ }, fs')⟩ ∧
      ∀ key, Usable s.directory fs key → Usable s.directory fs' key ∧
        hasFile s.directory fs' key =
          (!s.written.contains key && hasFile s.directory fs key) := by
  have hkeys : ∀ key ∈ s.written.keys, Usable s.directory fs key := by
    intro key hmem
    exact h key ((Ascending.mem_keys s.written key).mp hmem)
  obtain ⟨fs', hrun, hleft⟩ :=
    removeFiles_of_usable (s := { s with cache := ∅, written := ∅ }) hkeys
  refine ⟨fs', ?_, ?_⟩
  · rw [flush_apply, hrun]
  · intro key hkey
    obtain ⟨husable, hfile⟩ := hleft key hkey
    refine ⟨husable, ?_⟩
    rw [hfile, Bool.eq_iff_iff]
    simp [Ascending.mem_keys]

/-! ## What a success shows -/

/-- What could be added has a file that can be had. -/
theorem fileAt_of_add (h : (add key value (s, fs)).result = .ok ()) :
    ∃ place, FileAt s.directory fs key place := by
  rw [add] at h
  cases hvalid : validKey key with
  | false =>
    rw [addWith_of_invalid hvalid] at h
    cases h
  | true =>
    cases hplace : fs.locateIn s.directory (fileName key) with
    | error fault =>
      rw [addWith_of_unwritten hvalid (by rw [FileCalls.writeIn, hplace])] at h
      cases h
    | ok place =>
      cases hwrite : fs.writeAt place (Json.render value) with
      | error fault =>
        rw [addWith_of_unwritten hvalid
          (by rw [FileCalls.writeIn_willing, hplace]; exact congrArg _ hwrite)] at h
        cases h
      | ok fs' => exact ⟨place, hvalid, hplace, Files.ne_directory_of_writeAt hwrite⟩

/-- Where the directory is there, what could be removed has such a file too. -/
theorem fileAt_of_removeFile {home : Names} (hhome : fs.enter s.directory = .ok home)
    (h : (removeFile key (s, fs)).result = .ok ()) : ∃ place, FileAt s.directory fs key place := by
  rw [removeFile] at h
  cases hvalid : validKey key with
  | false =>
    rw [removeFileWith_of_invalid hvalid] at h
    cases h
  | true =>
    cases hplace : fs.locateIn s.directory (fileName key) with
    | error fault =>
      have hfault : fault ≠ .notFound := fun heq =>
        Files.locateIn_ne_notFound hhome fileName_ne_empty (heq ▸ hplace)
      rw [removeFileWith_of_kept hvalid (by rw [FileCalls.removeIn, hplace]) hfault] at h
      cases h
    | ok place =>
      refine ⟨place, hvalid, hplace, fun hheld => ?_⟩
      have hremove : FileCalls.willing.removeIn fs s.directory (fileName key) =
          (fs, .error .isDirectory) := by
        rw [FileCalls.removeIn, hplace]
        simp only [FileCalls.willing, Files.removeAt, hheld, FileCalls.answer]
      rw [removeFileWith_of_kept hvalid hremove (by simp)] at h
      cases h

theorem fileAt_of_delete {home : Names} (hhome : fs.enter s.directory = .ok home)
    (h : (delete key (s, fs)).result = .ok ()) : ∃ place, FileAt s.directory fs key place := by
  rw [delete_eq, Effect.bind_of_ok (update_apply _)] at h
  obtain ⟨_, events, _, hrun, _⟩ := Effect.ok_of_bind h
  exact fileAt_of_removeFile (s := { s with cache := s.cache.erase key }) hhome
    (congrArg Run.result hrun)

theorem contains_of_usable (h : Usable s.directory fs key) :
    s.contains fs key = (s.cache.contains key || hasFile s.directory fs key) := by
  obtain ⟨place, hkey⟩ := h
  rw [contains, hkey.valid, Bool.true_and]
  rfl

end FileStore

end Pipeline
