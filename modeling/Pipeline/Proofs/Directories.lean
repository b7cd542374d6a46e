import Pipeline.Proofs.Files

/-!
# Made directories

A directory that was made is there: `Files.Made` says that making it again does
nothing.  It holds after a successful `Files.makeDirectories`
(`made_of_makeDirectories`), it is kept wherever directories are
(`Made.of_keeps`), and a made directory can be entered (`Made.enter`).
-/

namespace Pipeline

namespace Files

variable {fs fs' : Files} {names other : Names} {place : Place} {directory path : String}

/-! ## Written paths that lead to a directory -/

theorem isDirectory_iff :
    fs.isDirectory path = true ↔
      ∃ place, fs.locate path = .ok place ∧ fs.at? place.names = some .directory := by
  rw [isDirectory]
  cases fs.locate path with
  | error fault => simp
  | ok place => simp

theorem locate_eq_ok :
    fs.locate path = .ok place ↔
      checkPath path = .ok () ∧
        ∃ names, fs.walk [] (parts (trimSlashes path)) = .ok names ∧
          place = ⟨names, endsInSlash path⟩ := by
  rw [locate]
  cases checkPath path with
  | error fault => simp [bind, Except.bind]
  | ok _ =>
    cases fs.walk [] (parts (trimSlashes path)) with
    | error fault => simp [bind, Except.bind]
    | ok names => simp [bind, Except.bind, eq_comm]

theorem locate_of_keeps (hkeeps : KeepsDirectories fs fs') (h : fs.locate path = .ok place) :
    fs'.locate path = .ok place := by
  obtain ⟨hpath, names, hwalk, hplace⟩ := locate_eq_ok.mp h
  exact locate_eq_ok.mpr ⟨hpath, names, walk_of_keeps hkeeps hwalk, hplace⟩

/-- A change that keeps all directories keeps this one. -/
theorem isDirectory_of_keeps (hkeeps : KeepsDirectories fs fs')
    (h : fs.isDirectory path = true) : fs'.isDirectory path = true := by
  obtain ⟨place, hlocate, hheld⟩ := isDirectory_iff.mp h
  exact isDirectory_iff.mpr ⟨place, locate_of_keeps hkeeps hlocate, hkeeps _ hheld⟩

/-! ## Making one directory -/

theorem makeDirectory_of_isDirectory (h : fs.isDirectory path = true) :
    fs.makeDirectory path = .error .alreadyExists := by
  obtain ⟨place, hlocate, hheld⟩ := isDirectory_iff.mp h
  simp [makeDirectory, hlocate, bind, Except.bind, hheld]

/-- A directory that was made is there. -/
theorem isDirectory_of_makeDirectory (h : fs.makeDirectory path = .ok fs') :
    fs'.isDirectory path = true := by
  cases hlocate : fs.locate path with
  | error fault => simp [makeDirectory, hlocate, bind, Except.bind] at h
  | ok place =>
    cases hheld : fs.at? place.names with
    | some held => simp [makeDirectory, hlocate, bind, Except.bind, hheld] at h
    | none =>
      have hroot : place.names ≠ [] := by
        intro hnil
        rw [hnil] at hheld
        cases hheld
      have hput : fs' = fs.put place.names .directory := by
        simpa [makeDirectory, hlocate, bind, Except.bind, hheld, eq_comm] using h
      have hkeeps : KeepsDirectories fs fs' := by
        have hfree : fs.at? place.names ≠ some .directory := by simp [hheld]
        refine keepsDirectories_of_frame hfree fun other hother => ?_
        rw [hput, at?_put hroot, if_neg hother]
      refine isDirectory_iff.mpr ⟨place, locate_of_keeps hkeeps hlocate, ?_⟩
      rw [hput, at?_put hroot, if_pos rfl]

/-- One that is there is left as it is. -/
theorem ensureDirectory_of_isDirectory (h : fs.isDirectory path = true) :
    fs.ensureDirectory path = (fs, .ok ()) := by
  rw [ensureDirectory, makeDirectory_of_isDirectory h]
  simp [h]

theorem isDirectory_of_ensureDirectory (h : fs.ensureDirectory path = (fs', .ok ())) :
    fs'.isDirectory path = true := by
  rw [ensureDirectory] at h
  split at h
  next made hmake =>
    cases h
    exact isDirectory_of_makeDirectory hmake
  next fault hmake =>
    by_cases hthere : fs.isDirectory path = true
    · simp only [hthere, if_true, Prod.mk.injEq, and_true] at h
      rw [← h]
      exact hthere
    · simp [hthere] at h

/-! ## Making a directory and those above it -/

/-- Nothing is missing for the directory with a written path. -/
def Made (fs : Files) (path : String) : Prop :=
  namesOf path = [] ∨ fs.isDirectory path = true

theorem Made.of_keeps (h : fs.Made path) (hkeeps : KeepsDirectories fs fs') : fs'.Made path :=
  h.imp_right (isDirectory_of_keeps hkeeps)

theorem Made.makeDirectories (h : fs.Made path) : fs.makeDirectories path = (fs, .ok ()) := by
  rw [Files.makeDirectories]
  cases hnames : (namesOf path).reverse with
  | nil => rfl
  | cons name above =>
    have hthere : fs.isDirectory path = true := by
      rcases h with hnone | hthere
      · rw [hnone] at hnames
        cases hnames
      · exact hthere
    rw [makeNames, makeDirectory_of_isDirectory hthere]
    exact ensureDirectory_of_isDirectory hthere

/-- Making directories that succeeds has made them. -/
theorem made_of_makeDirectories (h : fs.makeDirectories path = (fs', .ok ())) : fs'.Made path := by
  rw [Files.makeDirectories] at h
  cases hnames : (namesOf path).reverse with
  | nil => exact .inl (List.reverse_eq_nil_iff.mp hnames)
  | cons name above =>
    refine .inr ?_
    rw [hnames, makeNames] at h
    split at h
    · split at h
      · exact isDirectory_of_ensureDirectory h
      · cases h
    · exact isDirectory_of_ensureDirectory h

/-! ## Entering a made directory -/

/-- Names that say nothing lead nowhere. -/
theorem walk_of_silent (hhere : fs.at? names = some .directory) {rest : List String}
    (h : ∀ name ∈ rest, name = "" ∨ name = ".") : fs.walk names rest = .ok names := by
  induction rest with
  | nil => rfl
  | cons first rest ih =>
    rw [walk, hhere]
    dsimp only
    rw [if_pos (h first (by simp))]
    exact ih fun name hmem => h name (by simp [hmem])

theorem splitOn_append_replicate (chars : List Char) (n : Nat) :
    (chars ++ List.replicate n '/').splitOn '/' =
      chars.splitOn '/' ++ List.replicate n [] := by
  induction n generalizing chars with
  | zero => simp
  | succ n ih =>
    have hnone : (List.replicate n '/').splitOn '/' = List.replicate (n + 1) [] := by
      have := ih []
      rw [List.nil_append] at this
      rw [this]
      rfl
    rw [List.replicate_succ, List.splitOn, List.splitOnP_append_cons _ _ (by simp)]
    exact congrArg (chars.splitOn '/' ++ ·) hnone

/-- The slashes at the end of a path only add empty names. -/
theorem parts_eq_trimSlashes (path : String) :
    ∃ n, parts path = parts (trimSlashes path) ++ List.replicate n "" := by
  let slashes := path.toList.reverse.takeWhile (· = '/')
  refine ⟨slashes.length, ?_⟩
  have hslashes : slashes = List.replicate slashes.length '/' := by
    refine List.eq_replicate_iff.mpr ⟨rfl, fun c hc => ?_⟩
    simpa using List.all_eq_true.mp List.all_takeWhile c hc
  have hpath : path.toList = (trimSlashes path).toList ++ List.replicate slashes.length '/' := by
    rw [← List.reverse_inj, List.reverse_append, List.reverse_replicate, ← hslashes,
      trimSlashes, String.toList_ofList, List.reverse_reverse]
    exact (List.takeWhile_append_dropWhile ..).symm
  rw [parts, hpath, splitOn_append_replicate, List.map_append, List.map_replicate, parts]

/-- A directory that was made can be entered. -/
theorem Made.enter (h : fs.Made path) : ∃ home, fs.enter path = .ok home := by
  rcases h with hnone | hthere
  · refine ⟨[], enter_eq_ok.mpr ⟨walk_of_silent rfl ?_, rfl⟩⟩
    rw [namesOf] at hnone
    split at hnone
    · next hparts => rw [hparts]; simp
    · next first rest hparts =>
      rw [hparts]
      obtain ⟨hfirst, hrest⟩ := List.append_eq_nil_iff.mp hnone
      intro name hmem
      rcases List.mem_cons.mp hmem with rfl | hmem
      · by_cases hempty : name = ""
        · exact .inl hempty
        · simp [hempty] at hfirst
      · have := List.filter_eq_nil_iff.mp hrest name hmem
        grind
  · obtain ⟨place, hlocate, hheld⟩ := isDirectory_iff.mp hthere
    obtain ⟨_, names, hwalk, rfl⟩ := locate_eq_ok.mp hlocate
    obtain ⟨n, hparts⟩ := parts_eq_trimSlashes path
    refine ⟨names, enter_eq_ok.mpr ⟨?_, hheld⟩⟩
    rw [hparts, walk_append hwalk]
    refine walk_of_silent hheld fun name hmem => .inl ?_
    exact List.eq_of_mem_replicate hmem

end Files

end Pipeline
