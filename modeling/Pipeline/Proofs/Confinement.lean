import Pipeline.Proofs.FailedPop
import Pipeline.Proofs.StoreFrame

/-!
# Confinement to the directory

A store in files joins its directory and the name of a key's file to a written path, and what
the path leads to is found by walking it.  The test on keys is a list of what they may not
hold.  It is enough: the path of a valid key leads to its own name in the directory
(`Files.locate_join`), and to nothing above or below.

Every change is at such a path.  A path at which an operation changed the tree is the file of
the key that it added or deleted, or for a flush of a key that was added before
(`FileStore.Grounded.changes`).  So a run of any keys changes no more than the files of the
keys it was asked to add or to delete, each in the directory and no two of them one file
(`changes_stay_in_directory`).
-/

namespace Pipeline

/-! ## Written paths -/

namespace Files

variable {directory name name' : String}

/-- A text that a written path gives as one name, and that leads to an entry of its own. -/
structure IsName (name : String) : Prop where
  noSlash : '/' ∉ name.toList
  ne_empty : name ≠ ""
  ne_dot : name ≠ "."
  ne_dots : name ≠ ".."

/-- A text without slashes is one part. -/
theorem splitOn_of_noSlash (h : '/' ∉ name.toList) : name.toList.splitOn '/' = [name.toList] := by
  refine List.splitOnP_eq_singleton fun c hc => ?_
  rw [beq_eq_false_iff_ne]
  rintro rfl
  exact h hc

theorem parts_of_noSlash (h : '/' ∉ name.toList) : parts name = [name] := by
  rw [parts, splitOn_of_noSlash h, List.map_singleton, String.ofList_toList]

theorem parts_append_slash (front : String) (h : '/' ∉ name.toList) :
    parts (front ++ "/" ++ name) = parts front ++ [name] := by
  have hsplit : (front ++ "/" ++ name).toList.splitOn '/' =
      front.toList.splitOn '/' ++ [name.toList] := by
    have hlist : (front ++ "/" ++ name).toList = front.toList ++ '/' :: name.toList := by
      rw [String.toList_append, String.toList_append, List.append_assoc]
      rfl
    rw [hlist, ← splitOn_of_noSlash h]
    exact List.splitOnP_append_cons _ _ (beq_self_eq_true _)
  rw [parts, hsplit, List.map_append, List.map_singleton, String.ofList_toList, parts]

theorem endsInSlash_append (h : IsName name) (front : String) :
    endsInSlash (front ++ name) = false := by
  have hne : name.toList ≠ [] := fun hnil => h.ne_empty (String.toList_injective hnil)
  rw [endsInSlash, String.toList_append, List.getLast?_append, List.getLast?_eq_some_getLast hne,
    Option.some_or, decide_eq_false_iff_not]
  exact fun hlast => h.noSlash (Option.some.inj hlast ▸ List.getLast_mem hne)

theorem trimSlashes_of_not_endsInSlash (h : endsInSlash directory = false) :
    trimSlashes directory = directory := by
  rw [endsInSlash, decide_eq_false_iff_not, ← List.head?_reverse] at h
  have hdrop : directory.toList.reverse.dropWhile (· = '/') = directory.toList.reverse := by
    cases hchars : directory.toList.reverse with
    | nil => rfl
    | cons last rest =>
      rw [hchars] at h
      refine List.dropWhile_cons_of_neg ?_
      simpa using h
  rw [trimSlashes, hdrop, List.reverse_reverse, String.ofList_toList]

/-- A path that ends in a slash is one without that slash, and the slash. -/
theorem eq_append_of_endsInSlash (h : endsInSlash directory = true) :
    ∃ front, directory = front ++ "/" := by
  rw [endsInSlash, decide_eq_true_eq] at h
  obtain ⟨front, hfront⟩ := List.getLast?_eq_some_iff.mp h
  refine ⟨String.ofList front, String.toList_injective ?_⟩
  rw [hfront, String.toList_append, String.toList_ofList]
  rfl

/-! ## Walks -/

/-- An empty name asks for a directory, as a second one does. -/
theorem walk_empty_twice (fs : Files) (here : Names) :
    fs.walk here ["", ""] = fs.walk here [""] := by
  cases hheld : fs.at? here with
  | none => simp [walk, hheld]
  | some held => cases held <;> simp [walk, hheld]

theorem walk_name (h : IsName name) (fs : Files) (here : Names) :
    fs.walk here [name] = (fs.walk here [""]).bind fun home =>
      if maxName < name.utf8ByteSize then .error .nameTooLong else .ok (home ++ [name]) := by
  cases hheld : fs.at? here with
  | none => simp [walk, hheld, Except.bind]
  | some held =>
    cases held with
    | file text => simp [walk, hheld, Except.bind]
    | directory => simp [walk, hheld, Except.bind, h.ne_empty, h.ne_dot, h.ne_dots]

theorem enter_eq (fs : Files) (directory : String) :
    fs.enter directory = fs.walk [] (parts directory ++ [""]) := by
  rw [enter, walk_append_eq]
  cases fs.walk [] (parts directory) with
  | error fault => rfl
  | ok names =>
    simp only [bind, Except.bind, walk]
    cases fs.at? names with
    | none => rfl
    | some held => cases held <;> simp

/-- A name below a directory is walked to by entering the directory first. -/
theorem parts_join (h : IsName name) (directory : String) :
    ∃ above, parts (join directory name) = above ++ [name] ∧
      ∀ fs, fs.walk [] (above ++ [""]) = Files.enter fs directory := by
  by_cases hempty : directory = ""
  · subst hempty
    refine ⟨[], ?_, fun fs => rfl⟩
    rw [join, if_pos (.inl rfl), String.empty_append]
    exact parts_of_noSlash h.noSlash
  · cases hslash : endsInSlash directory with
    | true =>
      obtain ⟨front, rfl⟩ := eq_append_of_endsInSlash hslash
      refine ⟨parts front, ?_, fun fs => ?_⟩
      · rw [join, if_pos (.inr hslash)]
        exact parts_append_slash front h.noSlash
      · have hparts : parts (front ++ "/") = parts front ++ [""] := by
          simpa using @parts_append_slash "" front (by simp)
        rw [enter_eq, hparts, List.append_assoc, walk_append_eq, walk_append_eq]
        simp only [List.cons_append, List.nil_append, walk_empty_twice]
    | false =>
      refine ⟨parts directory, ?_, fun fs => (enter_eq fs directory).symm⟩
      rw [join, if_neg (by simp [hempty, hslash])]
      exact parts_append_slash directory h.noSlash

/-- The written path of a name in a directory leads to that name in that directory. -/
theorem locate_join (h : IsName name) (fs : Files) (directory : String) :
    fs.locate (join directory name) = fs.locateIn directory name := by
  obtain ⟨above, hparts, henter⟩ := parts_join h directory
  have hslash : endsInSlash (join directory name) = false := by
    rw [join]
    split <;> exact endsInSlash_append h _
  have hwalk : fs.walk [] (above ++ [name]) = (fs.enter directory).bind fun home =>
      if maxName < name.utf8ByteSize then .error .nameTooLong else .ok (home ++ [name]) := by
    rw [← henter, walk_append_eq, walk_append_eq]
    cases fs.walk [] above with
    | error fault => rfl
    | ok here => exact walk_name h fs here
  rw [locate, locateIn, trimSlashes_of_not_endsInSlash hslash, hslash, hparts, hwalk]
  cases checkPath (join directory name) with
  | error fault => rfl
  | ok _ =>
    cases fs.enter directory with
    | error fault => rfl
    | ok home =>
      by_cases hlong : maxName < name.utf8ByteSize
      · simp [bind, Except.bind, hlong]
      · simp [bind, Except.bind, hlong]

/-- Names in one directory have different written paths. -/
theorem join_inj (h : join directory name = join directory name') : name = name' := by
  rw [join, join] at h
  split at h <;> simpa using h

end Files

/-! ## The files of keys -/

namespace FileStore

variable {key key' path : String} {s : FileStore}

/-- The name of a valid key's file is one name.  Its ending keeps it from being `.` or `..`. -/
theorem isName_fileName (h : validKey key = true) : Files.IsName (fileName key) := by
  have hchars : (fileName key).toList = key.toList ++ ".json".toList := String.toList_append
  have hlong : 2 < (fileName key).toList.length := by
    rw [hchars, List.length_append]
    exact Nat.lt_of_lt_of_le (by decide) (Nat.le_add_left ..)
  have hshort {name : String} (hname : name.toList.length ≤ 2) : fileName key ≠ name := by
    rintro rfl
    exact absurd hlong (Nat.not_lt_of_le hname)
  refine ⟨?_, hshort (by decide), hshort (by decide), hshort (by decide)⟩
  rw [hchars, List.mem_append]
  rintro (hkey | hending)
  · have hclean : key.toList.all (fun c => c ≠ '/' ∧ c ≠ '\\') = true := by
      rw [validKey, Bool.and_eq_true, Bool.and_eq_true] at h
      exact h.1.2
    simpa using List.all_eq_true.mp hclean '/' hkey
  · revert hending
    decide

theorem filePath_eq_ok :
    s.filePath key = .ok path ↔
      validKey key = true ∧ path = Files.join s.directory (fileName key) := by
  rw [filePath]
  split
  next hvalid => simp [hvalid, eq_comm]
  next hvalid => simp [hvalid]

/-- The path of a key leads to the key's name in the directory. -/
theorem locate_filePath (h : s.filePath key = .ok path) (fs : Files) :
    fs.locate path = fs.locateIn s.directory (fileName key) := by
  obtain ⟨hvalid, rfl⟩ := filePath_eq_ok.mp h
  exact Files.locate_join (isName_fileName hvalid) fs s.directory

/-- Two keys do not have one path. -/
theorem filePath_inj (h : s.filePath key = .ok path) (h' : s.filePath key' = .ok path) :
    key = key' := by
  obtain ⟨_, rfl⟩ := filePath_eq_ok.mp h
  obtain ⟨_, hjoin⟩ := filePath_eq_ok.mp h'
  exact fileName_inj (Files.join_inj hjoin)

/-! ## Changes -/

/-- A path at which two trees differ is the file of a valid key, and no directory in either. -/
structure ChangedFile (home : Names) (fs fs' : Files) (key : String) (names : Names) : Prop where
  path : names = home ++ [fileName key]
  valid : validKey key = true
  before : fs.at? names ≠ some .directory
  after : fs'.at? names ≠ some .directory

variable {initial : Record} {fs fs' : Files} {home names : Names} {place : Place}
variable {entry : Option Entry}

/-- A tree that has another entry at the file of one key differs there only. -/
theorem FileAt.changedFile (h : FileAt s.directory fs key place)
    (hhome : fs.enter s.directory = .ok home)
    (hframe : ∀ names, fs'.at? names =
      if names = home ++ [fileName key] then entry else fs.at? names)
    (hentry : entry ≠ some .directory) (hchange : fs'.at? names ≠ fs.at? names) :
    ChangedFile home fs fs' key names := by
  have hnames : names = home ++ [fileName key] := by
    refine Classical.byContradiction fun hother => hchange ?_
    rw [hframe, if_neg hother]
  refine ⟨hnames, h.valid, ?_, ?_⟩
  · rw [hnames, ← h.names_eq hhome]
    exact h.clear
  · rw [hframe, if_pos hnames]
    exact hentry

/-- What an operation changes is the file of its key, or for a flush that of a written key. -/
theorem Grounded.changes (h : Grounded initial s fs) (hhome : fs.enter s.directory = .ok home)
    (operation : Operation)
    (hchange : (operation.perform (.inFiles s, fs)).2.2.at? names ≠ fs.at? names) :
    ∃ key, ChangedFile home fs (operation.perform (.inFiles s, fs)).2.2 key names ∧
      ((∃ value, operation = .add key value) ∨ operation = .delete key ∨
        operation = .flush ∧ s.written.contains key = true) := by
  cases operation with
  | add key value =>
    rw [Operation.perform, Store.add, Store.act] at hchange ⊢
    cases hresult : (FileStore.add key value (s, fs)).result with
    | error error =>
      rw [add_of_error hresult] at hchange
      exact absurd rfl hchange
    | ok _ =>
      obtain ⟨place, hplace⟩ := fileAt_of_add hresult
      rw [add_of_fileAt hplace] at hchange ⊢
      have hfile : some (Entry.file (Json.render value)) ≠ some .directory := by simp
      exact ⟨key, hplace.changedFile hhome (at?_put_fileAt hplace hhome _) hfile hchange,
        .inl ⟨value, rfl⟩⟩
  | delete key =>
    rw [Operation.perform, Store.delete, Store.act] at hchange ⊢
    cases hresult : (FileStore.delete key (s, fs)).result with
    | error error =>
      rw [delete_of_error hresult] at hchange
      exact absurd rfl hchange
    | ok _ =>
      obtain ⟨place, hplace⟩ := fileAt_of_delete hhome hresult
      rw [delete_of_fileAt hplace] at hchange ⊢
      have hnone : (none : Option Entry) ≠ some .directory := by simp
      exact ⟨key, hplace.changedFile hhome (at?_drop_fileAt hplace hhome) hnone hchange,
        .inr (.inl rfl)⟩
  | flush =>
    obtain ⟨fs', hrun, _, hframe⟩ := flush_frame hhome fun _ => h.usable
    have hshrinks : Files.Grows (FileStore.flush (s, fs)).state.2 fs :=
      flush_shrinks fs (Files.Grows.refl (s, fs).2)
    rw [Operation.perform, Store.flush, Store.act, hrun] at hchange ⊢
    rw [hrun] at hshrinks
    obtain ⟨key, hwritten, hnames⟩ : ∃ key, s.written.contains key = true ∧
        names = home ++ [fileName key] := by
      refine Classical.byContradiction fun hnone => hchange (hframe names ?_)
      exact fun key hwritten hnames => hnone ⟨key, hwritten, hnames⟩
    obtain ⟨place, hplace⟩ := h.usable hwritten
    have hclear : fs.at? names ≠ some .directory := by
      rw [hnames, ← hplace.names_eq hhome]
      exact hplace.clear
    exact ⟨key, ⟨hnames, hplace.valid, hclear, fun hheld => hclear (hshrinks _ _ hheld)⟩,
      .inr (.inr ⟨rfl, hwritten⟩)⟩
  | retrieve key =>
    rw [Operation.perform, Store.retrieve, Store.act, retrieve_state] at hchange
    exact absurd rfl hchange
  | contains key => exact absurd rfl hchange
  | size => exact absurd rfl hchange
  | isEmpty => exact absurd rfl hchange

end FileStore

theorem Operation.exists_add_of_added {key : String} {operations : List Operation}
    {s : Store × Files} (h : Added key (history operations s)) :
    ∃ value, .add key value ∈ operations := by
  obtain ⟨value, hmem⟩ := h
  exact ⟨value, (List.of_mem_zip hmem).1⟩

/-! ## The result -/

/-- A store is opened on a directory, and operations are done on it, of any keys and with any
answers.  A path at which one of them changes the tree is that of a file in the directory,
with the name of the key that the operation adds or deletes, or for a flush of one that was
added before.  Reading a key and asking for it change nothing.

The path that the store makes of a key it accepts leads to the key's file in the directory,
and to no file of another key. -/
theorem changes_stay_in_directory {directory : String} {initial : Record} {fs opened : Files}
    {store : Store} {events : List Event}
    (hopen : Store.create (some directory) initial fs = ⟨.ok store, events, opened⟩) :
    ∃ home, opened.enter directory = .ok home ∧
      (∀ (operations : List Operation) (operation : Operation) (s : Store × Files) names,
        Operation.leaves operations (store, opened) = s →
        (operation.perform s).2.2.at? names ≠ s.2.at? names →
        ∃ key, FileStore.ChangedFile home s.2 (operation.perform s).2.2 key names ∧
          ((∃ value, operation = .add key value) ∨ operation = .delete key ∨
            operation = .flush ∧ ∃ value, .add key value ∈ operations)) ∧
      (∀ key s, ((Operation.retrieve key).perform s).2 = s ∧
        ((Operation.contains key).perform s).2 = s) ∧
      ∀ operations s left, Operation.leaves operations (store, opened) = (.inFiles s, left) →
        (∀ key path, s.filePath key = .ok path →
          left.locate path = left.locateIn s.directory (FileStore.fileName key) ∧
          ∀ place, left.locate path = .ok place →
            place = ⟨home ++ [FileStore.fileName key], false⟩) ∧
        ∀ key key' path path', s.filePath key = .ok path → s.filePath key' = .ok path' →
          (path = path' ∨ ∃ place, left.locate path = .ok place ∧ left.locate path' = .ok place) →
          key = key' := by
  have hmake := Store.makeDirectories_of_create hopen
  obtain ⟨home, hhome⟩ := (Files.made_of_makeDirectories hmake).enter
  have hrun (operations : List Operation) :=
    (FileStore.Confined.start hhome initial).run (.opened hhome initial) operations
  rw [← Store.create_eq_ok hopen] at hrun
  refine ⟨home, hhome, ?_, ?_, ?_⟩
  · intro operations operation _ names hreach hchange
    obtain ⟨s, left, hleaves, hgrounded, hconfined⟩ := hrun operations
    rw [hleaves] at hreach
    subst hreach
    obtain ⟨key, hfile, hadd | hdelete | ⟨hflush, hwritten⟩⟩ :=
      hgrounded.changes hconfined.entered operation hchange
    · exact ⟨key, hfile, .inl hadd⟩
    · exact ⟨key, hfile, .inr (.inl hdelete)⟩
    · have hadded := Operation.exists_add_of_added (hconfined.written hwritten)
      exact ⟨key, hfile, .inr (.inr ⟨hflush, hadded⟩)⟩
  · exact fun key s => ⟨Store.retrieve_state key s, rfl⟩
  · intro operations s left hreach
    obtain ⟨_, _, hleaves, _, hconfined⟩ := hrun operations
    cases hleaves.symm.trans hreach
    have hplace {key path : String} {place : Place} (hpath : s.filePath key = .ok path)
        (hlocate : left.locate path = .ok place) :
        place = ⟨home ++ [FileStore.fileName key], false⟩ := by
      rw [FileStore.locate_filePath hpath] at hlocate
      obtain ⟨_, _, home', henter, rfl⟩ := Files.locateIn_eq_ok.mp hlocate
      cases hconfined.entered.symm.trans henter
      rfl
    refine ⟨fun key path hpath => ?_, ?_⟩
    · exact ⟨FileStore.locate_filePath hpath left, fun place => hplace hpath⟩
    · rintro key key' path path' hpath hpath' (rfl | ⟨place, hlocate, hlocate'⟩)
      · exact FileStore.filePath_inj hpath hpath'
      · have hsame := (hplace hpath hlocate).symm.trans (hplace hpath' hlocate')
        have hname : FileStore.fileName key = FileStore.fileName key' := by simpa using hsame
        exact FileStore.fileName_inj hname

/-- Keys that would lead out of the directory, a key of one dot, and a foreign file. -/
def strayRun : List Operation :=
  [.add "../old" .null, .add "." .null, .delete "a/b", .add "" .null, .delete "gone"]

theorem strayRun_stays_in_directory :
    Store.create (some "memory") seeded foreignFiles =
      ⟨.ok (.inFiles ⟨"memory", seeded, ∅⟩), [], foreignFiles⟩ ∧
    (Operation.leaves strayRun (.inFiles ⟨"memory", seeded, ∅⟩, foreignFiles)).2.at?
      ["memory", "..json"] = some (.file "null") ∧
    ∃ s left, Operation.leaves strayRun (.inFiles ⟨"memory", seeded, ∅⟩, foreignFiles) =
        (.inFiles s, left) ∧
      FileStore.ChangedFile ["memory"] left (Operation.flush.perform (.inFiles s, left)).2.2 "."
        ["memory", "..json"] ∧
      (∃ value, .add "." value ∈ strayRun) ∧
      s.filePath "." = .ok "memory/..json" ∧
      left.locate "memory/..json" = .ok ⟨["memory", "..json"], false⟩ ∧
      ∀ key', s.filePath key' = .ok "memory/..json" → key' = "." := by
  have hopen : Store.create (some "memory") seeded foreignFiles =
      ⟨.ok (.inFiles ⟨"memory", seeded, ∅⟩), [], foreignFiles⟩ := rfl
  have hmemory : foreignFiles.enter "memory" = .ok ["memory"] := rfl
  obtain ⟨home, hhome, hchanges, _, hpaths⟩ := changes_stay_in_directory hopen
  cases hhome.symm.trans hmemory
  have hreached : ∃ s left, Operation.leaves strayRun
        (.inFiles ⟨"memory", seeded, ∅⟩, foreignFiles) = (.inFiles s, left) ∧
      left.at? ["memory", "..json"] = some (.file "null") ∧
      (Operation.flush.perform (.inFiles s, left)).2.2.at? ["memory", "..json"] = none ∧
      s.filePath "." = .ok "memory/..json" ∧
      left.locate "memory/..json" = .ok ⟨["memory", "..json"], false⟩ :=
    ⟨_, _, rfl, rfl, rfl, rfl, rfl⟩
  obtain ⟨s, left, hleaves, hheld, hflushed, hpath, hlocate⟩ := hreached
  have hchange : (Operation.flush.perform (.inFiles s, left)).2.2.at? ["memory", "..json"] ≠
      left.at? ["memory", "..json"] := by
    rw [hflushed, hheld]
    simp
  obtain ⟨key, hfile, ⟨_, hadd⟩ | hdelete | ⟨_, hadded⟩⟩ := hchanges _ .flush _ _ hleaves hchange
  · cases hadd
  · cases hdelete
  · have hname : "..json" = FileStore.fileName key := by simpa using hfile.path
    have hsame : FileStore.fileName "." = FileStore.fileName key := hname
    obtain rfl := FileStore.fileName_inj hsame
    obtain ⟨_, honly⟩ := hpaths _ s left hleaves
    refine ⟨hopen, by rw [hleaves]; exact hheld, s, left, hleaves, hfile, hadded, hpath,
      hlocate, fun key' hpath' => ?_⟩
    exact honly key' "." _ _ hpath' hpath (.inl rfl)

end Pipeline
