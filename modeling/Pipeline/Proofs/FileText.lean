import Pipeline.Proofs.FileStore

/-!
# The text of a key's file

What the files hold for a key is one text, or the failure to read it
(`FileStore.fileText`).  A store reads a key that it has not cached from this text
alone (`retrieve_of_not_cached`).

Each operation that succeeds changes the text of its own keys and no other: adding
puts one in (`fileText_put`), removing takes it away (`fileText_drop`), and a flush
takes away those of the written keys (`flush_of_result`).
-/

namespace Pipeline

namespace FileStore

variable {directory key key' : String} {value : Value} {fs fs' : Files} {s : FileStore}
variable {place : Place} {home : Names} {keys : List String}

/-- The text of a key's file. -/
def fileText (directory : String) (fs : Files) (key : String) : Except FileFault String := do
  fs.readAt (← fs.locateIn directory (fileName key))

theorem fileText_of_fileAt (h : FileAt directory fs key place) :
    fileText directory fs key = fs.readAt place := by
  rw [fileText, h.path]
  rfl

/-! ## Texts after a change -/

/-- A change at the place of one key keeps the texts of the others. -/
theorem fileText_of_frame (h : FileAt directory fs key place)
    (hhome : fs.enter directory = .ok home) (hhome' : fs'.enter directory = .ok home)
    (hframe : ∀ other, other ≠ place.names → fs'.at? other = fs.at? other) (hne : key' ≠ key) :
    fileText directory fs' key' = fileText directory fs key' := by
  rw [fileText, fileText, Files.locateIn_congr hhome hhome']
  cases hplace : fs.locateIn directory (fileName key') with
  | error fault => rfl
  | ok place' =>
    have hother : place'.names ≠ place.names := by
      intro heq
      exact hne (fileName_inj (Files.locateIn_inj hplace h.path heq))
    change fs'.readAt place' = fs.readAt place'
    rw [Files.readAt, Files.readAt, hframe _ hother]

theorem keepsDirectories_put (h : FileAt directory fs key place) (text : String) :
    Files.KeepsDirectories fs (fs.put place.names (.file text)) := by
  refine Files.keepsDirectories_of_frame h.clear fun other hother => ?_
  rw [Files.at?_put (Files.locateIn_ne_nil h.path), if_neg hother]

theorem keepsDirectories_drop (h : FileAt directory fs key place) :
    Files.KeepsDirectories fs (fs.drop place.names) := by
  refine Files.keepsDirectories_of_frame h.clear fun other hother => ?_
  rw [Files.at?_drop (Files.locateIn_ne_nil h.path), if_neg hother]

theorem fileText_put (h : FileAt directory fs key place) (hhome : fs.enter directory = .ok home)
    (text : String) (key' : String) :
    fileText directory (fs.put place.names (.file text)) key' =
      if key' = key then .ok text else fileText directory fs key' := by
  have hroot := Files.locateIn_ne_nil h.path
  by_cases hkey : key' = key
  · subst hkey
    rw [if_pos rfl, fileText_of_fileAt (h.put h text), Files.readAt, Files.at?_put hroot,
      if_pos rfl]
    simp [Files.locateIn_slash h.path]
  · have hhome' := Files.enter_of_keeps (keepsDirectories_put h text) hhome
    rw [if_neg hkey]
    refine fileText_of_frame h hhome hhome' (fun other hother => ?_) hkey
    rw [Files.at?_put hroot, if_neg hother]

theorem fileText_drop (h : FileAt directory fs key place) (hhome : fs.enter directory = .ok home)
    (key' : String) :
    fileText directory (fs.drop place.names) key' =
      if key' = key then .error .notFound else fileText directory fs key' := by
  have hroot := Files.locateIn_ne_nil h.path
  by_cases hkey : key' = key
  · subst hkey
    rw [if_pos rfl, fileText_of_fileAt (h.drop h), Files.readAt, Files.at?_drop hroot, if_pos rfl]
  · have hhome' := Files.enter_of_keeps (keepsDirectories_drop h) hhome
    rw [if_neg hkey]
    refine fileText_of_frame h hhome hhome' (fun other hother => ?_) hkey
    rw [Files.at?_drop hroot, if_neg hother]

/-- Where all files of some keys could be removed, they are gone and the others are as
they were. -/
theorem removeFiles_of_result (hhome : fs.enter s.directory = .ok home)
    (h : (removeFiles keys (s, fs)).result = .ok ()) :
    ∃ fs', removeFiles keys (s, fs) = ⟨.ok (), [], (s, fs')⟩ ∧ Files.KeepsDirectories fs fs' ∧
      ∀ key, fileText s.directory fs' key =
        if key ∈ keys then .error .notFound else fileText s.directory fs key := by
  induction keys generalizing fs with
  | nil => exact ⟨fs, rfl, fun _ hdir => hdir, fun key => by simp⟩
  | cons first rest ih =>
    rw [removeFiles_cons] at h
    obtain ⟨_, events, _, hfirst, _⟩ := Effect.ok_of_bind h
    obtain ⟨place, hplace⟩ := fileAt_of_removeFile hhome (congrArg Run.result hfirst)
    have hkeeps := keepsDirectories_drop hplace
    rw [removeFiles_cons]
    rw [Effect.bind_of_ok (removeFile_of_fileAt hplace)] at h ⊢
    obtain ⟨fs', hrun, hkept, htext⟩ := ih (Files.enter_of_keeps hkeeps hhome) h
    refine ⟨fs', by rw [hrun]; rfl, fun names hdir => hkept names (hkeeps names hdir), ?_⟩
    intro key
    rw [htext, fileText_drop hplace hhome]
    by_cases hkey : key = first
    · simp [hkey]
    · simp [hkey]

/-- A flush that succeeds leaves no file of a written key, and the other files as they
were. -/
theorem flush_of_result (hhome : fs.enter s.directory = .ok home)
    (h : (flush (s, fs)).result = .ok ()) :
    ∃ fs', flush (s, fs) = ⟨.ok (), [], ({ s with cache := ∅, written := ∅ }, fs')⟩ ∧
      Files.KeepsDirectories fs fs' ∧
      ∀ key, fileText s.directory fs' key =
        if s.written.contains key then .error .notFound else fileText s.directory fs key := by
  rw [flush_apply] at h ⊢
  obtain ⟨fs', hrun, hkeeps, htext⟩ :=
    removeFiles_of_result (s := { s with cache := ∅, written := ∅ }) hhome h
  refine ⟨fs', hrun, hkeeps, fun key => ?_⟩
  simp only [htext, Ascending.mem_keys]

/-! ## Reading past the cache -/

/-- What the text of a key's file is read as. -/
def readAs (key : String) : Except FileFault String → Except MemoryError Value
  | .error .notFound => .error (.notFound key)
  | .error fault => .error (.file key fault)
  | .ok text => (Json.parse text).mapError (.malformed key)

/-- A key that is not cached is read from its file. -/
theorem retrieve_of_not_cached (fs : Files) (hcache : s.cache.get? key = none) :
    ∃ events, retrieve key (s, fs) =
      ⟨if validKey key then readAs key (fileText s.directory fs key) else .error (.invalidKey key),
        events, (s, fs)⟩ := by
  have hread : (fs.locateIn s.directory (fileName key) >>= fun place => fs.readAt place) =
      fileText s.directory fs key := rfl
  simp only [retrieve, Effect.get_bind, hcache, hread]
  cases hvalid : validKey key with
  | false => exact ⟨[], by simp [filePath, hvalid]⟩
  | true =>
    simp only [filePath_of_valid hvalid, Effect.ofExcept_ok_bind, if_true]
    cases fileText s.directory fs key with
    | error fault => cases fault <;> exact ⟨_, rfl⟩
    | ok text =>
      simp only [readAs]
      cases Json.parse text <;> exact ⟨_, rfl⟩

theorem retrieve_state : (retrieve key (s, fs)).state = (s, fs) := by
  cases hcache : s.cache.get? key with
  | some value => rw [retrieve_of_cached hcache]
  | none =>
    obtain ⟨events, hrun⟩ := retrieve_of_not_cached fs hcache
    rw [hrun]

end FileStore

end Pipeline
