import Pipeline.Proofs.Dict
import Pipeline.Proofs.FailedPop

/-!
# Reading memory into a register

On a memory in process, reading some identifiers is a function of the entries and the defaults
alone: `Memory.fetch` puts the values into the register one after another, up to the first key
that has none.  A copy gives what `fetch` gives and changes nothing (`Memory.copy_apply`).

A pop takes each entry out once it is read, so a key that is listed twice is missing the second
time.  Where no key is, a pop gives the same as a copy and leaves the memory without the keys
that were listed (`Memory.pop_apply`).
-/

namespace Pipeline

namespace Memory

/-! ## What is read, without memory -/

/-- What reading a key gives: its entry, or else its default. -/
def found (entries default : Record) (key : String) : Option Value :=
  (entries.get? key).or (default.get? key)

/-- The key has an entry or a default. -/
def Readable (entries default : Record) (key : String) : Prop :=
  entries.contains key = true ∨ default.contains key = true

/-- The values of some identifiers put into a register one after another, up to the first key
that has none. -/
def fetch (value? : String → Option Value) : List Identifier → Record → Except MemoryError Record
  | [], register => .ok register
  | identifier :: rest, register =>
    match value? identifier.memoryKey with
    | some value => fetch value? rest (register.insert identifier.registerKey value)
    | none => .error (.notFound identifier.memoryKey)

/-- A register with the values of some identifiers put in. -/
structure Landed (value? : String → Option Value) (identifiers : List Identifier)
    (register after : Record) : Prop where
  /-- A key that identifiers write has the value of the last of them. -/
  last : ∀ front identifier back, identifiers = front ++ identifier :: back →
    (∀ later ∈ back, later.registerKey ≠ identifier.registerKey) →
    after.get? identifier.registerKey = value? identifier.memoryKey
  /-- A key that none writes is left alone. -/
  others : ∀ key, (∀ identifier ∈ identifiers, identifier.registerKey ≠ key) →
    after.get? key = register.get? key

section

variable {value? value?' : String → Option Value} {identifiers front back : List Identifier}
variable {identifier : Identifier} {register after : Record}

theorem fetch_of_found {value : Value} (h : value? identifier.memoryKey = some value)
    (rest : List Identifier) (register : Record) :
    fetch value? (identifier :: rest) register =
      fetch value? rest (register.insert identifier.registerKey value) := by
  rw [fetch, h]

theorem fetch_of_missing (h : value? identifier.memoryKey = none) (rest : List Identifier)
    (register : Record) :
    fetch value? (identifier :: rest) register = .error (.notFound identifier.memoryKey) := by
  rw [fetch, h]

/-- Reading depends on the values of the listed keys alone. -/
theorem fetch_congr
    (h : ∀ identifier ∈ identifiers,
      value? identifier.memoryKey = value?' identifier.memoryKey) (register : Record) :
    fetch value? identifiers register = fetch value?' identifiers register := by
  induction identifiers generalizing register with
  | nil => rfl
  | cons first rest ih =>
    have hrest := fun identifier hmem => h identifier (List.mem_cons_of_mem first hmem)
    rw [fetch, fetch, h first List.mem_cons_self]
    cases value?' first.memoryKey with
    | none => rfl
    | some value => exact ih hrest _

theorem fetch_append (value? : String → Option Value) (front back : List Identifier)
    (register : Record) :
    fetch value? (front ++ back) register =
      (fetch value? front register).bind (fetch value? back) := by
  induction front generalizing register with
  | nil => rfl
  | cons first rest ih =>
    rw [List.cons_append, fetch, fetch]
    cases value? first.memoryKey with
    | none => rfl
    | some value => exact ih _

/-- Reading either gets through or ends at the first key that has no value. -/
theorem fetch_cases (value? : String → Option Value) (identifiers : List Identifier)
    (register : Record) :
    ((∀ identifier ∈ identifiers, (value? identifier.memoryKey).isSome) ∧
      ∃ after, fetch value? identifiers register = .ok after) ∨
    ∃ front identifier back, identifiers = front ++ identifier :: back ∧
      (∀ earlier ∈ front, (value? earlier.memoryKey).isSome) ∧
      value? identifier.memoryKey = none ∧
      fetch value? identifiers register = .error (.notFound identifier.memoryKey) := by
  induction identifiers generalizing register with
  | nil => exact .inl ⟨List.forall_mem_nil _, register, rfl⟩
  | cons first rest ih =>
    cases hvalue : value? first.memoryKey with
    | none =>
      exact .inr ⟨[], first, rest, rfl, List.forall_mem_nil _, hvalue,
        fetch_of_missing hvalue rest register⟩
    | some value =>
      have hfirst : (value? first.memoryKey).isSome := by rw [hvalue]; rfl
      rw [fetch_of_found hvalue]
      obtain ⟨hall, hok⟩ | ⟨front, identifier, back, hsplit, hfront, hnone, herror⟩ :=
        ih (register.insert first.registerKey value)
      · exact .inl ⟨List.forall_mem_cons.mpr ⟨hfirst, hall⟩, hok⟩
      · exact .inr ⟨first :: front, identifier, back, congrArg (first :: ·) hsplit,
          List.forall_mem_cons.mpr ⟨hfirst, hfront⟩, hnone, herror⟩

theorem fetch_succeeds_iff :
    (∃ after, fetch value? identifiers register = .ok after) ↔
      ∀ identifier ∈ identifiers, (value? identifier.memoryKey).isSome := by
  constructor
  · rintro ⟨after, h⟩
    obtain ⟨hall, -⟩ | ⟨_, _, _, _, _, _, herror⟩ := fetch_cases value? identifiers register
    · exact hall
    · rw [herror] at h
      cases h
  · intro hall
    obtain ⟨-, hok⟩ | ⟨_, identifier, _, rfl, _, hnone, -⟩ :=
      fetch_cases value? identifiers register
    · exact hok
    · have hsome := hall identifier (List.mem_append_right _ List.mem_cons_self)
      rw [hnone] at hsome
      cases hsome

theorem fetch_fails_iff {error : MemoryError} :
    fetch value? identifiers register = .error error ↔
      ∃ front identifier back, identifiers = front ++ identifier :: back ∧
        (∀ earlier ∈ front, (value? earlier.memoryKey).isSome) ∧
        value? identifier.memoryKey = none ∧ error = .notFound identifier.memoryKey := by
  constructor
  · intro h
    obtain ⟨-, after, hok⟩ | ⟨front, identifier, back, hsplit, hfront, hnone, herror⟩ :=
      fetch_cases value? identifiers register
    · rw [hok] at h
      cases h
    · rw [herror] at h
      cases h
      exact ⟨front, identifier, back, hsplit, hfront, hnone, rfl⟩
  · rintro ⟨front, identifier, back, rfl, hfront, hnone, rfl⟩
    obtain ⟨mid, hmid⟩ : ∃ mid, fetch value? front register = .ok mid :=
      fetch_succeeds_iff.mpr hfront
    rw [fetch_append, hmid, Except.bind, fetch_of_missing hnone]

/-- A key that no identifier writes is left alone. -/
theorem get?_of_fetch {key : String} (h : fetch value? identifiers register = .ok after)
    (hkey : ∀ identifier ∈ identifiers, identifier.registerKey ≠ key) :
    after.get? key = register.get? key := by
  induction identifiers generalizing register with
  | nil =>
    cases h
    rfl
  | cons first rest ih =>
    obtain ⟨hfirst, hrest⟩ := List.forall_mem_cons.mp hkey
    cases hvalue : value? first.memoryKey with
    | none =>
      rw [fetch_of_missing hvalue] at h
      cases h
    | some value =>
      rw [fetch_of_found hvalue] at h
      rw [ih h hrest, Ascending.get?_insert, if_neg hfirst.symm]

/-- The values that were read are in the register. -/
theorem landed_of_fetch (h : fetch value? identifiers register = .ok after) :
    Landed value? identifiers register after where
  last := by
    rintro front identifier back rfl hback
    rw [fetch_append] at h
    cases hfront : fetch value? front register with
    | error error =>
      rw [hfront] at h
      cases h
    | ok mid =>
      rw [hfront, Except.bind] at h
      cases hvalue : value? identifier.memoryKey with
      | none =>
        rw [fetch_of_missing hvalue] at h
        cases h
      | some value =>
        -- What comes after the last identifier for a key leaves that key alone.
        rw [fetch_of_found hvalue] at h
        rw [get?_of_fetch h hback, Ascending.get?_insert, if_pos rfl]
  others _ := get?_of_fetch h

end

/-! ## Memory in process -/

section

variable {entries default : Record} {key : String} {value : Value}

theorem isSome_found : (found entries default key).isSome = true ↔ Readable entries default key := by
  rw [found, Option.isSome_or, Bool.or_eq_true]
  rfl

theorem found_eq_none : found entries default key = none ↔ ¬ Readable entries default key := by
  rw [← isSome_found, Option.not_isSome_iff_eq_none]

theorem found_erase {other : String} (h : key ≠ other) :
    found (entries.erase other) default key = found entries default key := by
  rw [found, found, Ascending.get?_erase, if_neg h]

theorem lookup_of_found (h : found entries default key = some value) (fs : Files) :
    ∃ events, lookup key default (.inProcess entries, fs) =
      ⟨.ok value, events, (.inProcess entries, fs)⟩ := by
  apply lookup_of_result
  rw [found] at h
  cases hentry : entries.get? key with
  | some entry =>
    rw [hentry, Option.some_or] at h
    rw [lookup, Effect.tryCatch_of_ok (Store.retrieve_of_entry hentry fs), Option.some.inj h]
  | none =>
    rw [hentry, Option.none_or] at h
    rw [lookup, Effect.tryCatch_of_error (Store.retrieve_of_no_entry hentry fs), h]
    rfl

theorem lookup_of_missing (h : found entries default key = none) (fs : Files) :
    ∃ events, lookup key default (.inProcess entries, fs) =
      ⟨.error (.notFound key), events, (.inProcess entries, fs)⟩ := by
  apply lookup_of_result
  obtain ⟨hentry, hdefault⟩ := Option.or_eq_none_iff.mp h
  rw [lookup, Effect.tryCatch_of_error (Store.retrieve_of_no_entry hentry fs), hdefault]
  rfl

/-- A copy gives what was found and changes nothing. -/
theorem copy_apply (entries default : Record) (identifiers : List Identifier) (register : Record)
    (fs : Files) :
    ∃ events, get default false identifiers register (.inProcess entries, fs) =
      ⟨fetch (found entries default) identifiers register, events, (.inProcess entries, fs)⟩ := by
  induction identifiers generalizing register with
  | nil => exact ⟨[], rfl⟩
  | cons identifier rest ih =>
    rw [get_copy_cons]
    cases hvalue : found entries default identifier.memoryKey with
    | none =>
      obtain ⟨events, hlookup⟩ := lookup_of_missing hvalue fs
      rw [Effect.bind_of_error hlookup, fetch_of_missing hvalue]
      exact ⟨_, rfl⟩
    | some value =>
      obtain ⟨first, hlookup⟩ := lookup_of_found hvalue fs
      obtain ⟨second, hrest⟩ := ih (register.insert identifier.registerKey value)
      rw [Effect.bind_of_ok hlookup, hrest, fetch_of_found hvalue]
      exact ⟨_, rfl⟩

/-- A pop that lists no key twice gives what was found, and takes out what it listed. -/
theorem pop_apply {identifiers : List Identifier}
    (hkeys : (identifiers.map Identifier.memoryKey).Nodup) (entries default register : Record)
    (fs : Files) :
    ∃ events left, get default true identifiers register (.inProcess entries, fs) =
        ⟨fetch (found entries default) identifiers register, events, (.inProcess left, fs)⟩ ∧
      ∀ after, fetch (found entries default) identifiers register = .ok after →
        left = entries.eraseAll (identifiers.map Identifier.memoryKey) := by
  induction identifiers generalizing entries register with
  | nil => exact ⟨[], entries, rfl, fun _ _ => rfl⟩
  | cons identifier rest ih =>
    obtain ⟨hfirst, hrest⟩ := List.nodup_cons.mp hkeys
    rw [get_pop_cons]
    cases hvalue : found entries default identifier.memoryKey with
    | none =>
      obtain ⟨events, hlookup⟩ := lookup_of_missing hvalue fs
      rw [Effect.bind_of_error hlookup, fetch_of_missing hvalue]
      exact ⟨_, _, rfl, fun _ h => by cases h⟩
    | some value =>
      obtain ⟨first, hlookup⟩ := lookup_of_found hvalue fs
      have hdelete := Store.delete_apply identifier.memoryKey entries fs
      obtain ⟨second, left, hpop, hleft⟩ := ih hrest (entries.erase identifier.memoryKey)
        (register.insert identifier.registerKey value)
      -- The entry that was taken out is none of those that are still to be read.
      have hothers : ∀ other ∈ rest,
          found (entries.erase identifier.memoryKey) default other.memoryKey =
            found entries default other.memoryKey := by
        intro other hmem
        refine found_erase fun heq => hfirst ?_
        rw [← heq]
        exact List.mem_map_of_mem hmem
      rw [fetch_congr hothers] at hpop hleft
      rw [Effect.bind_of_ok hlookup, Effect.bind_of_ok hdelete, hpop, fetch_of_found hvalue]
      exact ⟨_, left, rfl, hleft⟩

end

end Memory

/-! ## The result -/

/-- Copying identifiers out of a memory in process changes nothing in it.  It succeeds when
every key has an entry or a default, and else fails at the first one that has neither.  A
register key then holds the value of the last identifier that writes it, which is the entry if
there is one, and no other key has changed.

Popping them, when no memory key is listed twice, ends alike, and leaves the memory without the
listed keys and with all others. -/
theorem reading_lands_in_register (entries default register : Record)
    (identifiers : List Identifier) (fs : Files) :
    let copied := Memory.get default false identifiers register (.inProcess entries, fs)
    let popped := Memory.get default true identifiers register (.inProcess entries, fs)
    copied.state = (.inProcess entries, fs) ∧
    ((∃ after, copied.result = .ok after) ↔
      ∀ identifier ∈ identifiers, Memory.Readable entries default identifier.memoryKey) ∧
    (∀ error, copied.result = .error error ↔
      ∃ front identifier back, identifiers = front ++ identifier :: back ∧
        (∀ earlier ∈ front, Memory.Readable entries default earlier.memoryKey) ∧
        ¬ Memory.Readable entries default identifier.memoryKey ∧
        error = .notFound identifier.memoryKey) ∧
    (∀ after, copied.result = .ok after →
      Memory.Landed (Memory.found entries default) identifiers register after) ∧
    ((identifiers.map Identifier.memoryKey).Nodup →
      popped.result = copied.result ∧
      ∀ after, popped.result = .ok after → ∃ left, popped.state = (.inProcess left, fs) ∧
        ∀ key, left.get? key =
          if key ∈ identifiers.map Identifier.memoryKey then none else entries.get? key) := by
  intro copied popped
  obtain ⟨events, hcopied⟩ := Memory.copy_apply entries default identifiers register fs
  have hresult : copied.result =
      Memory.fetch (Memory.found entries default) identifiers register :=
    congrArg Run.result hcopied
  refine ⟨congrArg Run.state hcopied, ?_, fun error => ?_, fun after hok => ?_, fun hkeys => ?_⟩
  · rw [hresult, Memory.fetch_succeeds_iff]
    simp only [Memory.isSome_found]
  · rw [hresult, Memory.fetch_fails_iff]
    simp only [Memory.isSome_found, Memory.found_eq_none]
  · exact Memory.landed_of_fetch (hresult ▸ hok)
  · obtain ⟨events', left, hpopped, hleft⟩ :=
      Memory.pop_apply hkeys entries default register fs
    have hsame : popped.result = copied.result :=
      (congrArg Run.result hpopped).trans hresult.symm
    refine ⟨hsame, fun after hok => ⟨left, congrArg Run.state hpopped, fun key => ?_⟩⟩
    rw [hleft after (hresult ▸ hsame ▸ hok), Ascending.get?_eraseAll]

/-- An entry and a default for one register key, and another entry. -/
def mixedReads : List Identifier := [⟨"a", "x"⟩, ⟨"b", "x"⟩, .same "c"]

/-- Two of the entries are read. -/
def shelf : Record := Ascending.ofList [("a", .int 1), ("c", .bool true), ("z", .null)]

/-- A default that is used, and one that is not. -/
def spares : Record := Ascending.ofList [("b", .string "spare"), ("c", .null)]

theorem mixedReads_land :
    let register : Record := Ascending.ofList [("kept", .int 0), ("x", .null)]
    let after : Record :=
      Ascending.ofList [("c", .bool true), ("kept", .int 0), ("x", .string "spare")]
    let popped := Memory.get spares true mixedReads register (.inProcess shelf, Files.empty)
    (∀ identifier ∈ mixedReads, Memory.Readable shelf spares identifier.memoryKey) ∧
    popped.result = .ok after ∧
    Memory.Landed (Memory.found shelf spares) mixedReads register after ∧
    ∃ left, popped.state = (.inProcess left, Files.empty) ∧ ∀ key, left.get? key =
      if key ∈ mixedReads.map Identifier.memoryKey then none else shelf.get? key := by
  intro register after popped
  obtain ⟨-, hsucceeds, -, hlanded, hpop⟩ :=
    reading_lands_in_register shelf spares register mixedReads Files.empty
  obtain ⟨hsame, hleft⟩ := hpop (by decide)
  have hok : popped.result = .ok after := rfl
  have hcopied := hsame.symm.trans hok
  exact ⟨hsucceeds.mp ⟨after, hcopied⟩, hok, hlanded after hcopied, hleft after hok⟩

end Pipeline
