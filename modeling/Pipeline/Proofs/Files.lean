import Pipeline.Files

/-!
# Laws of files

What a tree holds after a change at one path, and what the change cannot move.  A
walk asks only which paths are directories.  So a change that keeps all
directories (`KeepsDirectories`) keeps the end of every walk, and with it every
place that a name in a directory leads to (`locateIn_of_keeps`).

The willing calls do what the tree lets them do, and one that fails changes no file.
-/

namespace Pipeline

namespace Files

variable {fs fs' : Files} {names other : Names} {entry : Entry} {place place' : Place}
variable {text : String} {directory name name' : String}

/-! ## Looking up after a change -/

theorem lookup_cons_eq_ite (path other : Names) (held : Entry) (rest : List (Names × Entry)) :
    ((path, held) :: rest).lookup other =
      if other = path then some held else rest.lookup other := by
  by_cases h : other = path
  · subst h
    simp
  · simp [List.lookup_cons, beq_false_of_ne h, h]

theorem lookup_filter_ne (names other : Names) (entries : List (Names × Entry)) :
    (entries.filter fun e => e.1 ≠ names).lookup other =
      if other = names then none else entries.lookup other := by
  induction entries with
  | nil => simp
  | cons first rest ih =>
    obtain ⟨path, held⟩ := first
    by_cases hpath : path = names
    · rw [List.filter_cons_of_neg (by simp [hpath]), ih, lookup_cons_eq_ite, hpath]
      split <;> rfl
    · rw [List.filter_cons_of_pos (by simp [hpath]), lookup_cons_eq_ite, ih, lookup_cons_eq_ite]
      by_cases hother : other = path
      · rw [if_pos hother, if_neg (by rw [hother]; exact hpath), if_pos hother]
      · rw [if_neg hother, if_neg hother]

theorem at?_of_ne_nil (h : other ≠ []) : fs.at? other = fs.entries.lookup other := by
  rw [at?, if_neg h]

/-- An entry is found at its path, and the others where they were. -/
theorem at?_put (h : names ≠ []) (other : Names) :
    (fs.put names entry).at? other = if other = names then some entry else fs.at? other := by
  by_cases hroot : other = []
  · subst hroot
    rw [if_neg h.symm]
    rfl
  · rw [at?_of_ne_nil hroot, at?_of_ne_nil hroot, put, lookup_cons_eq_ite, lookup_filter_ne]
    split <;> rfl

theorem at?_drop (h : names ≠ []) (other : Names) :
    (fs.drop names).at? other = if other = names then none else fs.at? other := by
  by_cases hroot : other = []
  · subst hroot
    rw [if_neg h.symm]
    rfl
  · rw [at?_of_ne_nil hroot, at?_of_ne_nil hroot, drop, lookup_filter_ne]

/-- Dropping a path that names nothing changes nothing. -/
theorem drop_eq_self (h : fs.at? names = none) : fs.drop names = fs := by
  have hroot : names ≠ [] := by
    intro hnil
    subst hnil
    cases h
  rw [at?_of_ne_nil hroot, List.lookup_eq_none_iff] at h
  have hkept : (fs.entries.filter fun e => e.1 ≠ names) = fs.entries := by
    apply List.filter_eq_self.mpr
    intro e hmem
    have hne : names ≠ e.1 := by simpa using h e hmem
    simpa using hne.symm
  rw [drop, hkept]

/-! ## Changes that keep directories -/

/-- Every directory of the first tree is one in the second. -/
def KeepsDirectories (fs fs' : Files) : Prop :=
  ∀ names, fs.at? names = some .directory → fs'.at? names = some .directory

/-- A change at a path that is no directory keeps directories. -/
theorem keepsDirectories_of_frame (h : fs.at? names ≠ some .directory)
    (hframe : ∀ other, other ≠ names → fs'.at? other = fs.at? other) :
    KeepsDirectories fs fs' := by
  intro other hother
  have hne : other ≠ names := by
    intro heq
    subst heq
    exact h hother
  rw [hframe other hne]
  exact hother

/-- A walk that ends starts at a directory, and its first step is the same in every tree
that has a directory there. -/
theorem walk_step {here : Names} {first : String} {rest : List String}
    (h : fs.walk here (first :: rest) = .ok names) :
    fs.at? here = some .directory ∧
      ∃ next, ∀ (tree : Files) (tail : List String), tree.at? here = some .directory →
        tree.walk here (first :: tail) = tree.walk next tail := by
  rw [walk] at h
  cases hhere : fs.at? here with
  | none => simp [hhere] at h
  | some held =>
    cases held with
    | file text => simp [hhere] at h
    | directory =>
      refine ⟨rfl, ?_⟩
      rw [hhere] at h
      dsimp only at h
      -- each name leads on to one shorter walk, or to an error
      split at h
      · next hstay => exact ⟨here, fun tree tail hdir => by simp [walk, hdir, hstay]⟩
      · next hstay =>
        split at h
        · next hup => exact ⟨here.dropLast, fun tree tail hdir => by simp [walk, hdir, hup]⟩
        · next hup =>
          split at h
          · cases h
          · next hlong =>
            exact ⟨here ++ [first], fun tree tail hdir => by simp [walk, hdir, hstay, hup, hlong]⟩

/-- A walk that ends, ends alike where the directories are kept. -/
theorem walk_of_keeps (hkeeps : KeepsDirectories fs fs') :
    ∀ {rest : List String} {here : Names}, fs.walk here rest = .ok names →
      fs'.walk here rest = .ok names := by
  intro rest
  induction rest with
  | nil =>
    intro here h
    exact h
  | cons first rest ih =>
    intro here h
    obtain ⟨hhere, next, hstep⟩ := walk_step h
    rw [hstep fs' rest (hkeeps here hhere)]
    rw [hstep fs rest hhere] at h
    exact ih h

/-- A walk along two lists of names is one walk after the other, also where one fails. -/
theorem walk_append_eq (fs : Files) (here : Names) (before after : List String) :
    fs.walk here (before ++ after) =
      (fs.walk here before).bind fun names => fs.walk names after := by
  induction before generalizing here with
  | nil => rfl
  | cons first rest ih =>
    rw [List.cons_append, walk, walk]
    cases fs.at? here with
    | none => rfl
    | some held =>
      cases held with
      | file text => rfl
      | directory =>
        dsimp only
        split
        · exact ih here
        · split
          · exact ih _
          · split
            · rfl
            · exact ih _

/-- A walk along two lists of names goes on where the first one ends. -/
theorem walk_append {here : Names} {before after : List String}
    (h : fs.walk here before = .ok names) :
    fs.walk here (before ++ after) = fs.walk names after := by
  rw [walk_append_eq, h]
  rfl

/-- Entering a directory is a walk that ends at one. -/
theorem enter_eq_ok {home : Names} :
    fs.enter directory = .ok home ↔
      fs.walk [] (parts directory) = .ok home ∧ fs.at? home = some .directory := by
  rw [enter]
  cases hwalk : fs.walk [] (parts directory) with
  | error fault => simp [bind, Except.bind]
  | ok found =>
    simp only [bind, Except.bind, Except.ok.injEq]
    constructor
    · intro h
      split at h
      · cases h
      · cases h
      · next hfound => cases h; exact ⟨rfl, hfound⟩
    · rintro ⟨rfl, hfound⟩
      rw [hfound]

/-- A name in a directory leads below it, if neither it nor the whole path is too long. -/
theorem locateIn_eq_ok :
    fs.locateIn directory name = .ok place ↔
      checkPath (join directory name) = .ok () ∧ name.utf8ByteSize ≤ maxName ∧
        ∃ home, fs.enter directory = .ok home ∧ place = ⟨home ++ [name], false⟩ := by
  rw [locateIn]
  cases checkPath (join directory name) with
  | error fault => simp [bind, Except.bind]
  | ok _ =>
    cases fs.enter directory with
    | error fault => simp [bind, Except.bind]
    | ok home =>
      by_cases hlong : maxName < name.utf8ByteSize
      · simp [bind, Except.bind, hlong, Nat.not_le_of_lt hlong]
      · simp [bind, Except.bind, hlong, Nat.le_of_not_lt hlong, eq_comm]

theorem enter_of_keeps {home : Names} (hkeeps : KeepsDirectories fs fs')
    (h : fs.enter directory = .ok home) : fs'.enter directory = .ok home := by
  obtain ⟨hwalk, hhome⟩ := enter_eq_ok.mp h
  exact enter_eq_ok.mpr ⟨walk_of_keeps hkeeps hwalk, hkeeps home hhome⟩

/-- A change that keeps all directories keeps the places of names in them. -/
theorem locateIn_of_keeps (hkeeps : KeepsDirectories fs fs')
    (h : fs.locateIn directory name = .ok place) : fs'.locateIn directory name = .ok place := by
  obtain ⟨hpath, hname, home, henter, hplace⟩ := locateIn_eq_ok.mp h
  exact locateIn_eq_ok.mpr ⟨hpath, hname, home, enter_of_keeps hkeeps henter, hplace⟩

/-! ## The place of a name in a directory -/

theorem locateIn_ne_nil (h : fs.locateIn directory name = .ok place) : place.names ≠ [] := by
  obtain ⟨_, _, home, _, rfl⟩ := locateIn_eq_ok.mp h
  simp

theorem locateIn_slash (h : fs.locateIn directory name = .ok place) : place.slash = false := by
  obtain ⟨_, _, home, _, rfl⟩ := locateIn_eq_ok.mp h
  rfl

/-- Different names in one directory have different places. -/
theorem locateIn_inj (h : fs.locateIn directory name = .ok place)
    (h' : fs.locateIn directory name' = .ok place') (heq : place.names = place'.names) :
    name = name' := by
  obtain ⟨_, _, home, henter, rfl⟩ := locateIn_eq_ok.mp h
  obtain ⟨_, _, home', henter', rfl⟩ := locateIn_eq_ok.mp h'
  rw [henter] at henter'
  cases henter'
  simpa using heq

/-- A name in a directory leads to the same place in all trees with that directory. -/
theorem locateIn_congr {home : Names} (h : fs.enter directory = .ok home)
    (h' : fs'.enter directory = .ok home) (name : String) :
    fs'.locateIn directory name = fs.locateIn directory name := by
  rw [locateIn, locateIn, h, h']

/-- The path of a name in a directory that is there never fails for want of an entry. -/
theorem locateIn_ne_notFound {home : Names} (h : fs.enter directory = .ok home)
    (hname : name ≠ "") : fs.locateIn directory name ≠ .error .notFound := by
  have hjoin : join directory name ≠ "" := by
    rw [join]
    split <;> simp [hname]
  rw [locateIn, h, checkPath, if_neg hjoin]
  intro hfault
  split at hfault
  · cases hfault
  · split at hfault
    · cases hfault
    · simp only [bind, Except.bind] at hfault
      split at hfault <;> cases hfault

/-! ## Operations at a place that asks for no directory -/

/-- A file can be written where there is no directory. -/
theorem writeAt_of_ne_directory (hslash : place.slash = false)
    (h : fs.at? place.names ≠ some .directory) :
    fs.writeAt place text = .ok (fs.put place.names (.file text)) := by
  rw [writeAt]
  cases hheld : fs.at? place.names with
  | none => simp [hslash]
  | some held =>
    cases held with
    | file old => simp [hslash]
    | directory => exact absurd hheld h

/-- And only there. -/
theorem ne_directory_of_writeAt (h : fs.writeAt place text = .ok fs') :
    fs.at? place.names ≠ some .directory := by
  intro hheld
  rw [writeAt, hheld] at h
  cases h

theorem removeAt_of_none (h : fs.at? place.names = none) :
    fs.removeAt place = .error .notFound := by
  rw [removeAt, h]

theorem removeAt_of_file (hslash : place.slash = false)
    (h : fs.at? place.names = some (.file text)) :
    fs.removeAt place = .ok (fs.drop place.names) := by
  rw [removeAt, h]
  simp [hslash]

theorem isFileAt_of_slash (hslash : place.slash = false) :
    fs.isFileAt place = true ↔ ∃ text, fs.at? place.names = some (.file text) := by
  rw [isFileAt]
  cases fs.at? place.names with
  | none => simp
  | some held => cases held <;> simp [hslash]

end Files

/-! ## Calls -/

namespace FileCalls

variable {fs left : Files} {directory name text : String} {changed : Except FileFault Files}
variable {fault : FileFault}

theorem answer_of_error (h : answer fs changed = (left, .error fault)) :
    left = fs ∧ changed = .error fault := by
  cases changed with
  | ok fs' => cases h
  | error fault' =>
    cases h
    exact ⟨rfl, rfl⟩

/-- A willing call writes as the tree does. -/
theorem writeIn_willing :
    willing.writeIn fs directory name text =
      answer fs (fs.locateIn directory name >>= fun place => fs.writeAt place text) := by
  rw [writeIn]
  cases fs.locateIn directory name <;> rfl

theorem removeIn_willing :
    willing.removeIn fs directory name =
      answer fs (fs.locateIn directory name >>= fun place => fs.removeAt place) := by
  rw [removeIn]
  cases fs.locateIn directory name <;> rfl

/-- A willing call that fails changes no file. -/
theorem writeIn_willing_error (h : willing.writeIn fs directory name text = (left, .error fault)) :
    left = fs := by
  rw [writeIn_willing] at h
  exact (answer_of_error h).1

theorem removeIn_willing_error (h : willing.removeIn fs directory name = (left, .error fault)) :
    left = fs := by
  rw [removeIn_willing] at h
  exact (answer_of_error h).1

end FileCalls

end Pipeline
