import Pipeline.Proofs.Files
import Pipeline.Proofs.Halting
import Pipeline.Proofs.MemoryActions
import Pipeline.Stock.Executable
import Pipeline.Stock.Predicate

/-!
# Isolation of memory

A child evaluator shares the memory of its parent, and a nested evaluator has the one it
was made with.  A tree that uses memory only inside nested evaluators with memories of
their own, in process, neither reads nor changes the memory of the evaluator around it
(`memory_isolated`): two runs that start with different contents of that memory do the
same in every other respect.

An `Enclosure` is that memory with the files it may be kept in, and `Shielded` the two-run
property that every construct keeps.  Which memory a part of the tree uses is decided by
the innermost evaluator around the part, so what is asked of a tree is asked of each part
in the evaluator it runs in.
-/

namespace Pipeline

/-- The memory of an evaluator, the paths of the files it is kept in, and the memories that
a tree in the evaluator may use as its own. -/
structure Enclosure where
  id : MemoryId
  files : Names → Prop
  own : MemoryId → Prop
  ne_of_own : ∀ {m : MemoryId}, own m → m ≠ id

/-- The worlds differ only in what is enclosed, and the memories for own use are in
process. -/
structure Agree (b : Enclosure) (w w' : World) : Prop where
  memories : ∀ m, m ≠ b.id → w.memory m = w'.memory m
  files : ∀ names, ¬ b.files names → w.files.at? names = w'.files.at? names
  inProcess : ∀ m, b.own m → ∃ entries, w.memory m = .inProcess entries

/-- What is enclosed is what it was. -/
structure Kept (b : Enclosure) (w v : World) : Prop where
  memory : v.memory b.id = w.memory b.id
  files : ∀ names, b.files names → v.files.at? names = w.files.at? names

/-- Two runs, from worlds that agree, that leave worlds that agree, and each what is
enclosed as it was. -/
structure Alike (b : Enclosure) (w w' v v' : World) : Prop where
  agree : Agree b v v'
  kept : Kept b w v
  kept' : Kept b w' v'

/-- The world with a memory in place of another. -/
def World.setMemory (w : World) (m : MemoryId) (s : Store) : World :=
  ⟨w.memories.set m s, w.files⟩

@[simp] theorem World.memory_setMemory (w : World) (m k : MemoryId) (s : Store) :
    (w.setMemory m s).memory k = if k = m then s else w.memory k :=
  w.memories.get_set m k s

section

variable {b : Enclosure}

/-- One store put in both worlds leaves them in agreement. -/
theorem Agree.set {w w' : World} (h : Agree b w w') (m : MemoryId) (entries : Record) :
    Agree b (w.setMemory m (.inProcess entries)) (w'.setMemory m (.inProcess entries)) where
  memories k hk := by
    rw [World.memory_setMemory, World.memory_setMemory, h.memories k hk]
  files := h.files
  inProcess k hk := by
    rw [World.memory_setMemory]
    split
    · exact ⟨entries, rfl⟩
    · exact h.inProcess k hk

namespace Kept

variable {w v u : World}

theorem refl (w : World) : Kept b w w := ⟨rfl, fun _ _ => rfl⟩

/-- What is kept twice is kept. -/
theorem trans (h : Kept b w v) (h' : Kept b v u) : Kept b w u :=
  ⟨h'.memory.trans h.memory, fun names hnames =>
    (h'.files names hnames).trans (h.files names hnames)⟩

/-- A change to a memory for own use keeps what is enclosed. -/
theorem set {m : MemoryId} (hm : b.own m) (s : Store) : Kept b w (w.setMemory m s) :=
  ⟨by rw [World.memory_setMemory, if_neg (b.ne_of_own hm).symm], fun _ _ => rfl⟩

end Kept

namespace Alike

variable {w w' v v' u u' : World}

/-- Worlds that agree are left as they are. -/
theorem refl (h : Agree b w w') : Alike b w w' w w' := ⟨h, .refl w, .refl w'⟩

theorem trans (h : Alike b w w' v v') (h' : Alike b v v' u u') : Alike b w w' u u' :=
  ⟨h'.agree, h.kept.trans h'.kept, h.kept'.trans h'.kept'⟩

end Alike

/-! ## Actions -/

/-- The action does not look at what is enclosed, and leaves it as it is. -/
def Blind (b : Enclosure) {α : Type} (x : Act α) : Prop :=
  ∀ ⦃w w' : World⦄, Agree b w w' → ∃ result events v v',
    x w = ⟨result, events, v⟩ ∧ x w' = ⟨result, events, v'⟩ ∧ Alike b w w' v v'

namespace Blind

variable {α β : Type} {x : Act α}

theorem emit (events : List Event) : Blind b (Effect.emit events : Act Unit) :=
  fun w w' h => ⟨.ok (), events, w, w', rfl, rfl, .refl h⟩

theorem answer (y : Except ExecutionError α) : Blind b (Effect.ofExcept y : Act α) :=
  fun w w' h => ⟨y, [], w, w', rfl, rfl, .refl h⟩

/-- What follows starts from worlds that agree again. -/
theorem bind {f : α → Act β} (hx : Blind b x) (hf : ∀ a, Blind b (f a)) :
    Blind b (x >>= f) := by
  intro w w' h
  obtain ⟨error | a, first, v, v', hrun, hrun', halike⟩ := hx h
  · exact ⟨.error error, first, v, v', Effect.bind_of_error hrun, Effect.bind_of_error hrun',
      halike⟩
  · obtain ⟨result, second, u, u', hrunf, hrunf', halike'⟩ := hf a halike.agree
    refine ⟨result, first ++ second, u, u', ?_, ?_, halike.trans halike'⟩
    · rw [Effect.bind_of_ok hrun, hrunf]; rfl
    · rw [Effect.bind_of_ok hrun', hrunf']; rfl

/-- A handler starts from worlds that agree, whatever the failed part did to its own memories. -/
theorem tryCatch {handle : ExecutionError → Act α} (hx : Blind b x)
    (hhandle : ∀ error, Blind b (handle error)) :
    Blind b (MonadExcept.tryCatch x handle) := by
  intro w w' h
  obtain ⟨error | a, first, v, v', hrun, hrun', halike⟩ := hx h
  · obtain ⟨result, second, u, u', hrunh, hrunh', halike'⟩ := hhandle error halike.agree
    refine ⟨result, first ++ second, u, u', ?_, ?_, halike.trans halike'⟩
    · rw [Effect.tryCatch_of_error hrun, hrunh]; rfl
    · rw [Effect.tryCatch_of_error hrun', hrunh']; rfl
  · exact ⟨.ok a, first, v, v', Effect.tryCatch_of_ok hrun, Effect.tryCatch_of_ok hrun', halike⟩

/-- Putting an error into another form looks at no world. -/
theorem mapError (g : ExecutionError → ExecutionError) (hx : Blind b x) :
    Blind b (x.mapError g) := by
  intro w w' h
  obtain ⟨result, events, v, v', hrun, hrun', halike⟩ := hx h
  refine ⟨result.mapError g, events, v, v', ?_, ?_, halike⟩
  · simp only [Effect.mapError, hrun, Run.mapError]
  · simp only [Effect.mapError, hrun', Run.mapError]

/-- An action on a memory for own use, which is in process. -/
theorem onMemory {m : MemoryId} (hm : b.own m) {y : Store.Action α}
    (hy : Store.InProcess y) : Blind b (World.onMemory m y) := by
  intro w w' h
  obtain ⟨entries, hw⟩ := h.inProcess m hm
  have hw' : w'.memory m = .inProcess entries := (h.memories m (b.ne_of_own hm)).symm.trans hw
  obtain ⟨result, events, entries', hrun⟩ := hy entries
  refine ⟨result.mapError .memory, events, w.setMemory m (.inProcess entries'),
    w'.setMemory m (.inProcess entries'), ?_, ?_, ?_⟩
  · simp only [World.onMemory, Effect.mapError, Effect.zoom, hw, hrun, Run.mapError]; rfl
  · simp only [World.onMemory, Effect.mapError, Effect.zoom, hw', hrun, Run.mapError]; rfl
  · exact ⟨h.set m entries', .set hm _, .set hm _⟩

end Blind

/-- What a leaf does around its work is blind to every world. -/
theorem leafLogic_blind : LeafLogic (Blind b) where
  answer := Blind.answer
  report l level message _ := Blind.emit (l.logAt level message)
  bind := Blind.bind
  mapError g h := h.mapError g

/-! ## Courses -/

/-- From worlds that agree, the course ends in the same way or gives no answer, and
leaves worlds that agree. -/
def Shielded (b : Enclosure) {α : Type} (x : Course α) : Prop :=
  ∀ ⦃w w' : World⦄, Agree b w w' → (x w = none ∧ x w' = none) ∨
    ∃ result events v v', x w = some ⟨result, events, v⟩ ∧ x w' = some ⟨result, events, v'⟩ ∧
      Alike b w w' v v'

namespace Shielded

variable {α β : Type} {x : Course α}

/-- A blind action, as a course that always ends. -/
theorem ofEffect {y : Act α} (h : Blind b y) : Shielded b (Process.ofEffect y) := by
  intro w w' hagree
  obtain ⟨result, events, v, v', hrun, hrun', halike⟩ := h hagree
  exact .inr ⟨result, events, v, v', congrArg some hrun, congrArg some hrun', halike⟩

theorem pure (a : α) : Shielded b (Pure.pure a : Course α) := ofEffect (.answer (.ok a))

/-- Where the first part gives no answer in one world, it gives none in the other. -/
theorem bind {f : α → Course β} (hx : Shielded b x) (hf : ∀ a, Shielded b (f a)) :
    Shielded b (x >>= f) := by
  intro w w' h
  obtain ⟨hnone, hnone'⟩ | ⟨error | a, first, v, v', hrun, hrun', halike⟩ := hx h
  · exact .inl ⟨Process.bind_of_none hnone, Process.bind_of_none hnone'⟩
  · exact .inr ⟨.error error, first, v, v', Process.bind_of_error hrun,
      Process.bind_of_error hrun', halike⟩
  · rw [Process.bind_of_ok hrun, Process.bind_of_ok hrun']
    obtain ⟨hnone, hnone'⟩ | ⟨result, second, u, u', hrunf, hrunf', halike'⟩ := hf a halike.agree
    · exact .inl ⟨by rw [hnone]; rfl, by rw [hnone']; rfl⟩
    · refine .inr ⟨result, first ++ second, u, u', ?_, ?_, halike.trans halike'⟩
      · rw [hrunf]; rfl
      · rw [hrunf']; rfl

/-- An error that is looked at as a value is the same in both worlds. -/
theorem attempt (hx : Shielded b x) : Shielded b x.attempt := by
  intro w w' h
  obtain ⟨hnone, hnone'⟩ | ⟨result, events, v, v', hrun, hrun', halike⟩ := hx h
  · exact .inl ⟨Process.attempt_of_none hnone, Process.attempt_of_none hnone'⟩
  · exact .inr ⟨.ok result, events, v, v', Process.attempt_of_some hrun,
      Process.attempt_of_some hrun', halike⟩

theorem emit (events : List Event) : Shielded b (Process.emit events) :=
  ofEffect (.emit events)

theorem throw (error : ExecutionError) :
    Shielded b (MonadExcept.throw error : Course α) :=
  ofEffect (.answer (.error error))

/-- An evaluator reports the same error in both worlds. -/
theorem within (e : Evaluator) {body : Course Outcome} (h : Shielded b body) :
    Shielded b (evaluateIn e body) := by
  refine h.attempt.bind fun result => ?_
  cases result with
  | ok outcome => exact pure outcome
  | error error => exact (emit _).bind fun _ => throw _

/-- A step goes on, is skipped or ends the schema in both worlds alike. -/
theorem step (e : Evaluator) {y : Course Outcome} {f : Record → Course Outcome} (name : String)
    (index : Nat) (component : String) (register : Record) (hy : Shielded b y)
    (hf : ∀ r, Shielded b (f r)) :
    Shielded b (afterStep e name index component register y f) := by
  refine hy.attempt.bind fun result => ?_
  obtain error | (r | r) := result
  · refine (emit _).bind fun _ => ?_
    split
    · exact throw _
    · exact (emit _).bind fun _ => hf register
  · exact (emit _).bind fun _ => hf r
  · exact pure _

end Shielded

/-! ## Trees -/

/-- In an evaluator, the component uses memory only if the evaluator's is for own use, and
an executable is blind to what is not. -/
def Component.UsesOwn (b : Enclosure) (e : Evaluator) :
    Component → Prop
  | .setMemory .. | .getMemory .. | .deleteMemory .. => b.own e.memory
  | .executable _ _ x => ∀ data, Blind b (x.invoke data e)
  | _ => True

/-- The same of a predicate: a condition may copy entries of memory, and a test may look. -/
def Predicate.UsesOwn (b : Enclosure) (e : Evaluator) :
    Predicate → Prop
  | .test check => ∀ register, Blind b (check register e)
  | .condition _ _ _ (some _) => b.own e.memory
  | _ => True

/-- The work of a leaf that uses memories for own use is blind to what is enclosed. -/
theorem Component.UsesOwn.workKeeps {c : Component}
    (hc : c.IsLeaf) {e : Evaluator} (h : c.UsesOwn b e) : c.WorkKeeps (Blind b) e := by
  cases c with
  | executable => exact h
  | setMemory name key => exact fun value => .onMemory h (Memory.set_inProcess key value)
  | getMemory => exact fun _ => .onMemory h (Memory.get_inProcess _ _ _ _)
  | deleteMemory name keys =>
    exact ⟨.onMemory h Memory.flush_inProcess,
      .onMemory h (Memory.deleteAll_inProcess keys)⟩
  | action | exit | log => trivial
  | schema | loop | forEach | filter | switch | evaluator => cases hc

/-- Every construct is shielded when its parts are, each in the evaluator it runs in. -/
theorem Shielded.simulation (rounds : Nat) :
    Simulation rounds rounds Eq (fun x _ => Shielded b x)
      (fun e c => c.UsesOwn b e) (fun e p => p.UsesOwn b e) where
  le := Nat.le_refl rounds
  endless _ := fun _ _ _ => .inl ⟨rfl, rfl⟩
  pure a := pure a
  list register key := ofEffect (.answer _)
  element item := ofEffect (.answer _)
  bind := bind
  child name he := by rw [he]
  emit message _ _ := emit _
  within _ h := within _ h
  step name index component register _ hy hf := step _ name index component register hy hf
  leaf c register hc h _ := by
    obtain ⟨x, hx, hblind⟩ := leafLogic_blind.leaf hc (h.workKeeps hc) rounds register
    rw [hx]
    exact ofEffect hblind
  -- Its own memory is another matter: what its parts use is asked of them in `context`.
  nested context body register _ ih := within context (ih context rfl)
  test check register h _ := ofEffect (h register)
  fetch _ _ _ register identifiers h _ :=
    ofEffect (.onMemory h (Memory.get_inProcess ∅ false identifiers register))

end

/-! ## The result -/

end Pipeline
