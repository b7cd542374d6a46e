import Pipeline.Proofs.Halting

/-!
# Grouping steps means nothing

A schema that is a step of a schema can be *dissolved*: its own steps take its place.
`Component.flatten` dissolves all of them, at any depth, and keeps the name of the
outermost one.  A schema and its flat form end in the same way under either policy
(`ends_flatten`).  When both fail, the flat error lacks exactly the layers of the
dissolved schemas that the failure came through, which `Component.schemaPath` reads off
the tree and the indices in the error.

Only the events differ, since a dissolved schema reports no steps.
-/

namespace Pipeline

/-! ## Flat schemas -/

mutual

/-- The steps that stand for a component in a flat schema. -/
def Component.dissolve : Component → List Component
  | .schema _ steps => Component.dissolveAll steps
  | c => [c]

/-- The steps that stand for some components in a flat schema. -/
def Component.dissolveAll : List Component → List Component
  | [] => []
  | step :: rest => step.dissolve ++ Component.dissolveAll rest

end

/-- A schema without schemas among its steps, under the same name. -/
def Component.flatten : Component → Component
  | .schema name steps => .schema name (Component.dissolveAll steps)
  | c => c

/-- A component that is a schema. -/
def Component.IsSchema : Component → Prop
  | .schema .. => True
  | _ => False

theorem Component.dissolve_of_not_isSchema {c : Component} (h : ¬ c.IsSchema) :
    c.dissolve = [c] := by
  cases c with
  | schema => exact absurd trivial h
  | action | executable | loop | forEach | filter | switch | exit | log | setMemory | getMemory
  | deleteMemory | evaluator => rfl

/-! ## The way of a failure -/

/-- The names of the schemas that an error of a component came through, from the
component inwards.  Each layer of a schema says which step failed. -/
def Component.schemaPath : Component → ExecutionError → List String
  | .schema name steps, .schemaFailed _ index _ inner =>
    name :: match steps[index]? with
      | some step => step.schemaPath inner
      | none => []
  | _, _ => []
termination_by structural _ error => error

theorem Component.schemaPath_of_not_isSchema {c : Component} (h : ¬ c.IsSchema)
    (error : ExecutionError) : c.schemaPath error = [] := by
  cases c with
  | schema => exact absurd trivial h
  | action | executable | loop | forEach | filter | switch | exit | log | setMemory | getMemory
  | deleteMemory | evaluator => cases error <;> rfl

theorem Component.schemaPath_schema {steps : List Component} {index : Nat} {step : Component}
    (h : steps[index]? = some step) (name layer component : String) (inner : ExecutionError) :
    (Component.schema name steps).schemaPath (.schemaFailed layer index component inner) =
      name :: step.schemaPath inner := by
  rw [Component.schemaPath, h]

/-- An error of a component is the cause inside the layers of the schemas on its way. -/
structure Stems (c : Component) (error cause : ExecutionError) : Prop where
  rootCause : error.rootCause = cause.rootCause
  contextChain : error.contextChain = c.schemaPath error ++ cause.contextChain

theorem Stems.refl {c : Component} (h : ¬ c.IsSchema) (error : ExecutionError) :
    Stems c error error where
  rootCause := rfl
  contextChain := by rw [Component.schemaPath_of_not_isSchema h]; rfl

/-- The way through a schema is its name and the way through the step that failed. -/
theorem Stems.schema {steps : List Component} {index : Nat} {step : Component}
    (h : steps[index]? = some step) (name component : String) {inner cause : ExecutionError}
    (hinner : Stems step inner cause) :
    Stems (.schema name steps) (.schemaFailed name index component inner) cause where
  rootCause := hinner.rootCause
  contextChain := by
    rw [Component.schemaPath_schema h, ExecutionError.contextChain, hinner.contextChain]
    rfl

/-! ## The flat run beside the nested one -/

/-- How a run ends: its answer and the world after it. -/
abbrev Ending := Option (Except ExecutionError Outcome × World)

/-- A flat schema fails with a cause of the component's error. -/
def FlatFailure (outer : String) (c : Component) (error : ExecutionError) (w : World)
    (flat : Ending) : Prop :=
  ∃ index component cause, Stems c error cause ∧
    flat = some (.error (.schemaFailed outer index component cause), w)

/-- The same for an error of a schema's steps, which are counted from `start`.  Only
fast exit lets such an error out. -/
def FlatStepFailure (outer : String) (e : Evaluator) (name : String) (start : Nat)
    (steps : List Component) (error : ExecutionError) (w : World) (flat : Ending) : Prop :=
  e.fastExit = true ∧
    ∃ k step inner, error = .schemaFailed name (start + k) step.name inner ∧
      steps[k]? = some step ∧ FlatFailure outer step inner w flat

/-- A failure after a first step counts its steps from one further on. -/
theorem FlatStepFailure.cons {outer name : String} {e : Evaluator} {start : Nat}
    {steps : List Component} {error : ExecutionError} {w : World} {flat : Ending}
    (first : Component) (h : FlatStepFailure outer e name (start + 1) steps error w flat) :
    FlatStepFailure outer e name start (first :: steps) error w flat := by
  obtain ⟨hfast, k, step, inner, rfl, hk, hflat⟩ := h
  refine ⟨hfast, k + 1, step, inner, ?_, ?_, hflat⟩
  · rw [Nat.add_right_comm, Nat.add_assoc]
  · rw [List.getElem?_cons_succ]
    exact hk

/-- How the steps that stand for a part end, given how the part ends.  `next` is what
follows them, and `failed` says what becomes of a failure. -/
def Continues (next : Record → World → Ending)
    (failed : ExecutionError → World → Ending → Prop) : Ending → Ending → Prop
  | none, flat => flat = none
  | some (.ok (.next r), w), flat => flat = next r w
  | some (.ok (.exitLoop r), w), flat => flat = some (.ok (.exitLoop r), w)
  | some (.error error, w), flat => failed error w flat

theorem Continues.mono {next : Record → World → Ending}
    {failed failed' : ExecutionError → World → Ending → Prop} {nested flat : Ending}
    (h : Continues next failed nested flat)
    (himp : ∀ error w, failed error w flat → failed' error w flat) :
    Continues next failed' nested flat := by
  match nested with
  | none => exact h
  | some (.ok (.next _), _) => exact h
  | some (.ok (.exitLoop _), _) => exact h
  | some (.error error, w) => exact himp error w h

section

variable (rounds : Nat) (outer : String) (e : Evaluator)

/-- How the other steps of a flat schema end. -/
def following (tail : List Component) (index : Nat) (register : Record) (w : World) : Ending :=
  (runSteps rounds outer tail e index register).ending w

/-- What becomes of a step's failure.  Under fast exit the flat schema fails, and else
it goes on from the register before the step. -/
def FlatStep (c : Component) (tail : List Component) (index : Nat) (register : Record)
    (error : ExecutionError) (w : World) (flat : Ending) : Prop :=
  if e.fastExit then FlatFailure outer c error w flat
  else flat = following rounds outer e tail (index + c.dissolve.length) register w

/-- A step that is no schema stands for itself. -/
theorem continues_of_not_isSchema {c : Component} (hc : ¬ c.IsSchema) (tail : List Component)
    (index : Nat) (register : Record) (w : World) :
    Continues (following rounds outer e tail (index + c.dissolve.length))
      (FlatStep rounds outer e c tail index register)
      ((c.run rounds e register).ending w)
      ((runSteps rounds outer (c.dissolve ++ tail) e index register).ending w) := by
  rw [Component.dissolve_of_not_isSchema hc, List.singleton_append, runSteps_cons,
    ending_afterStep]
  rcases (c.run rounds e register).ending w with _ | ⟨error | (r | r), w'⟩
  · rfl
  · change if e.fastExit then _ else _
    by_cases hfast : e.fastExit = true
    · rw [if_pos hfast]
      change FlatFailure outer c error w' (if e.fastExit then _ else _)
      rw [if_pos hfast]
      exact ⟨index, c.name, error, Stems.refl hc error, rfl⟩
    · rw [if_neg hfast, Component.dissolve_of_not_isSchema hc]
      change (if e.fastExit then _ else _) = _
      rw [if_neg hfast]
      rfl
  · rfl
  · rfl

mutual

/-- The steps that stand for a component do what it does. -/
theorem continues_dissolve (c : Component) (tail : List Component) (index : Nat)
    (register : Record) (w : World) :
    Continues (following rounds outer e tail (index + c.dissolve.length))
      (FlatStep rounds outer e c tail index register)
      ((c.run rounds e register).ending w)
      ((runSteps rounds outer (c.dissolve ++ tail) e index register).ending w) := by
  match c with
  | .schema name steps =>
    refine (continues_dissolveAll steps tail name 0 index register w).mono ?_
    rintro error w' ⟨hfast, k, step, inner, rfl, hstep, i, component, cause, hstems, hflat⟩
    change if e.fastExit then _ else _
    rw [if_pos hfast, Nat.zero_add]
    exact ⟨i, component, cause, hstems.schema hstep name step.name, hflat⟩
  | .action .. | .executable .. | .loop .. | .forEach .. | .filter .. | .switch .. | .exit _
  | .log .. | .setMemory .. | .getMemory .. | .deleteMemory .. | .evaluator .. =>
    exact continues_of_not_isSchema rounds outer e id tail index register w

/-- The steps that stand for the steps of a schema do what the schema does. -/
theorem continues_dissolveAll (steps tail : List Component) (name : String) (start index : Nat)
    (register : Record) (w : World) :
    Continues (following rounds outer e tail (index + (Component.dissolveAll steps).length))
      (FlatStepFailure outer e name start steps)
      ((runSteps rounds name steps e start register).ending w)
      ((runSteps rounds outer (Component.dissolveAll steps ++ tail) e index
        register).ending w) := by
  match steps with
  | [] => rfl
  | step :: rest =>
    have h := continues_dissolve step (Component.dissolveAll rest ++ tail) index register w
    have hrest (r : Record) (w' : World) :=
      (continues_dissolveAll rest tail name (start + 1) (index + step.dissolve.length) r w').mono
        fun _ _ => FlatStepFailure.cons step
    rw [Component.dissolveAll, List.append_assoc, List.length_append, ← Nat.add_assoc,
      runSteps_cons, ending_afterStep]
    rcases hend : (step.run rounds e register).ending w with _ | ⟨error | (r | r), w'⟩
    · rw [hend] at h; exact h
    · rw [hend] at h
      change if e.fastExit then _ else _ at h
      change Continues _ _ (if e.fastExit then _ else _) _
      by_cases hfast : e.fastExit = true
      · rw [if_pos hfast] at h ⊢
        exact ⟨hfast, 0, step, error, rfl, rfl, h⟩
      · rw [if_neg hfast] at h ⊢
        rw [h]
        exact hrest register w'
    · rw [hend] at h
      change _ = following rounds outer e _ _ r w' at h
      rw [h]
      exact hrest r w'
    · rw [hend] at h; exact h

end

end

/-! ## Results -/

mutual

theorem not_isSchema_of_mem_dissolve (c : Component) : ∀ step ∈ c.dissolve, ¬ step.IsSchema := by
  match c with
  | .schema _ steps => exact not_isSchema_of_mem_dissolveAll steps
  | .action .. | .executable .. | .loop .. | .forEach .. | .filter .. | .switch .. | .exit _
  | .log .. | .setMemory .. | .getMemory .. | .deleteMemory .. | .evaluator .. =>
    intro step hstep
    rw [List.mem_singleton.mp hstep]
    exact id

/-- A flat schema has no schema among its steps. -/
theorem not_isSchema_of_mem_dissolveAll (steps : List Component) :
    ∀ step ∈ Component.dissolveAll steps, ¬ step.IsSchema := by
  match steps with
  | [] => intro step hstep; cases hstep
  | first :: rest =>
    intro step hstep
    rw [Component.dissolveAll, List.mem_append] at hstep
    rcases hstep with hstep | hstep
    · exact not_isSchema_of_mem_dissolve first step hstep
    · exact not_isSchema_of_mem_dissolveAll rest step hstep

end

/-- With the same rounds a schema and its flat form both run on, give the same outcome
in the same world, or both fail in the same world. -/
theorem flatten_cases (rounds : Nat) (name : String) (steps : List Component) (e : Evaluator)
    (register : Record) (w : World) :
    let nested := ((Component.schema name steps).run rounds e register).ending w
    let flat := ((Component.schema name steps).flatten.run rounds e register).ending w
    (nested = none ∧ flat = none) ∨
      (∃ outcome w', nested = some (.ok outcome, w') ∧ flat = some (.ok outcome, w')) ∨
      ∃ error error' w', nested = some (.error error, w') ∧ flat = some (.error error', w') ∧
        FlatStepFailure name e name 0 steps error w' flat := by
  intro nested flat
  have h := continues_dissolveAll rounds name e steps [] name 0 0 register w
  rw [List.append_nil] at h
  change Continues _ _ nested flat at h
  clear_value nested flat
  match nested, h with
  | none, h => exact .inl ⟨rfl, h⟩
  | some (.ok (.next r), w'), h => exact .inr (.inl ⟨.next r, w', rfl, h⟩)
  | some (.ok (.exitLoop r), w'), h => exact .inr (.inl ⟨.exitLoop r, w', rfl, h⟩)
  | some (.error error, w'), h =>
    have hfail : FlatStepFailure name e name 0 steps error w' flat := h
    obtain ⟨_, _, _, _, _, _, _, _, _, _, hflat⟩ := h
    exact .inr (.inr ⟨error, _, w', rfl, hflat, hfail⟩)

/-- The two errors of a schema and its flat form. -/
theorem FlatStepFailure.layers {name : String} {e : Evaluator} {steps : List Component}
    {error error' : ExecutionError} {w w' : World}
    (h : FlatStepFailure name e name 0 steps error w (some (.error error', w'))) :
    w' = w ∧ error.rootCause = error'.rootCause ∧
      ∃ dissolved chain, (Component.schema name steps).schemaPath error = name :: dissolved ∧
        error.contextChain = name :: (dissolved ++ chain) ∧
        error'.contextChain = name :: chain := by
  obtain ⟨_, k, step, inner, rfl, hk, index, component, cause, hstems, hflat⟩ := h
  cases hflat
  rw [Nat.zero_add]
  refine ⟨rfl, hstems.rootCause, step.schemaPath inner, cause.contextChain, ?_, ?_, rfl⟩
  · exact Component.schemaPath_schema hk name name step.name inner
  · rw [ExecutionError.contextChain, hstems.contextChain]

section

variable {name : String} {steps : List Component} {e : Evaluator} {register : Record}
variable {w w' w'' : World} {error error' : ExecutionError} {outcome : Outcome}

/-- A schema and its flat form give the same outcomes. -/
theorem ends_ok_iff_flatten :
    (Component.schema name steps).Ends e register w (.ok outcome) w' ↔
      (Component.schema name steps).flatten.Ends e register w (.ok outcome) w' := by
  rw [Component.ends_iff, Component.ends_iff]
  constructor
  · rintro ⟨rounds, hrun⟩
    refine ⟨rounds, ?_⟩
    rcases flatten_cases rounds name steps e register w with
      ⟨hn, _⟩ | ⟨_, _, hn, hf⟩ | ⟨_, _, _, hn, _⟩
    · rw [hrun] at hn; cases hn
    · rw [hrun] at hn; cases hn; exact hf
    · rw [hrun] at hn; cases hn
  · rintro ⟨rounds, hrun⟩
    refine ⟨rounds, ?_⟩
    rcases flatten_cases rounds name steps e register w with
      ⟨_, hf⟩ | ⟨_, _, hn, hf⟩ | ⟨_, _, _, _, hf, _⟩
    · rw [hrun] at hf; cases hf
    · rw [hrun] at hf; cases hf; exact hn
    · rw [hrun] at hf; cases hf

/-- A schema fails where its flat form does. -/
theorem ends_error_iff_flatten :
    (∃ error, (Component.schema name steps).Ends e register w (.error error) w') ↔
      ∃ error, (Component.schema name steps).flatten.Ends e register w (.error error) w' := by
  simp only [Component.ends_iff]
  constructor
  · rintro ⟨error, rounds, hrun⟩
    rcases flatten_cases rounds name steps e register w with
      ⟨hn, _⟩ | ⟨_, _, hn, _⟩ | ⟨_, error', _, hn, hf, _⟩
    · rw [hrun] at hn; cases hn
    · rw [hrun] at hn; cases hn
    · rw [hrun] at hn; cases hn; exact ⟨error', rounds, hf⟩
  · rintro ⟨error', rounds, hrun⟩
    rcases flatten_cases rounds name steps e register w with
      ⟨_, hf⟩ | ⟨_, _, _, hf⟩ | ⟨error, _, _, hn, hf, _⟩
    · rw [hrun] at hf; cases hf
    · rw [hrun] at hf; cases hf
    · rw [hrun] at hf; cases hf; exact ⟨error, rounds, hn⟩

/-- Where both fail, the errors differ by the layers of the dissolved schemas. -/
theorem flatStepFailure_of_ends
    (hnested : (Component.schema name steps).Ends e register w (.error error) w')
    (hflat : (Component.schema name steps).flatten.Ends e register w (.error error') w'') :
    FlatStepFailure name e name 0 steps error w' (some (.error error', w'')) := by
  obtain ⟨rounds, hrun⟩ := Component.ends_iff.mp hnested
  rcases flatten_cases rounds name steps e register w with
    ⟨hn, _⟩ | ⟨_, _, hn, _⟩ | ⟨_, cause, _, hn, hf, hlayers⟩
  · rw [hrun] at hn; cases hn
  · rw [hrun] at hn; cases hn
  · rw [hrun] at hn
    cases hn
    obtain ⟨herror, rfl⟩ := hflat.unique (Component.ends_iff.mpr ⟨rounds, hf⟩)
    cases herror
    rw [hf] at hlayers
    exact hlayers

end

/-- A schema and its flat form give the same outcomes and leave the same worlds, and
one fails where the other does.  Their errors have one root cause, and the flat one
lacks exactly the layers of the dissolved schemas that the failure came through. -/
theorem ends_flatten (name : String) (steps : List Component) (e : Evaluator)
    (register : Record) (w : World) :
    (∀ outcome w', (Component.schema name steps).Ends e register w (.ok outcome) w' ↔
      (Component.schema name steps).flatten.Ends e register w (.ok outcome) w') ∧
    (∀ w', (∃ error, (Component.schema name steps).Ends e register w (.error error) w') ↔
      ∃ error, (Component.schema name steps).flatten.Ends e register w (.error error) w') ∧
    ∀ error error' w' w'', (Component.schema name steps).Ends e register w (.error error) w' →
      (Component.schema name steps).flatten.Ends e register w (.error error') w'' →
      w'' = w' ∧ error.rootCause = error'.rootCause ∧
        ∃ dissolved chain, (Component.schema name steps).schemaPath error = name :: dissolved ∧
          error.contextChain = name :: (dissolved ++ chain) ∧
          error'.contextChain = name :: chain := by
  refine ⟨?_, ?_, ?_⟩
  · intro outcome w'
    exact ends_ok_iff_flatten
  · intro w'
    exact ends_error_iff_flatten
  · intro error error' w' w'' hnested hflat
    exact (flatStepFailure_of_ends hnested hflat).layers

/-- A rename that fails two schemas deep. -/
def buriedRename : Component :=
  .schema "Outer"
    [.log "Log" (.make .info),
     .schema "Middle"
      [.schema "Inner" [.action "Rename" (.root "output" .local) (.rename ⟨"a", "b"⟩)]]]

/-- The error of the buried rename. -/
def buriedError : ExecutionError :=
  .schemaFailed "Outer" 1 "Middle"
    (.schemaFailed "Middle" 0 "Inner"
      (.schemaFailed "Inner" 0 "Rename" (.action "Rename" (.missingKey "a"))))

/-- The error of the same rename in the flat schema. -/
def surfacedError : ExecutionError :=
  .schemaFailed "Outer" 1 "Rename" (.action "Rename" (.missingKey "a"))

theorem buriedRename_ends_flatten :
    buriedRename.Ends (.make "Root" .off true 0) ∅ World.empty (.error buriedError) World.empty ∧
    buriedRename.flatten.Ends (.make "Root" .off true 0) ∅ World.empty (.error surfacedError)
      World.empty ∧
    ∃ chain, buriedError.contextChain = "Outer" :: (["Middle", "Inner"] ++ chain) ∧
      surfacedError.contextChain = "Outer" :: chain := by
  have hnested : buriedRename.Ends (.make "Root" .off true 0) ∅ World.empty (.error buriedError)
      World.empty := ⟨_, 0, rfl⟩
  have hflat : buriedRename.flatten.Ends (.make "Root" .off true 0) ∅ World.empty
      (.error surfacedError) World.empty := ⟨_, 0, rfl⟩
  obtain ⟨_, _, dissolved, chain, hpath, hchain, hflatChain⟩ :=
    (ends_flatten "Outer" _ (.make "Root" .off true 0) ∅ World.empty).2.2 _ _ _ _ hnested hflat
  have hdissolved : dissolved = ["Middle", "Inner"] := by
    injection hpath with _ h
    exact h.symm
  subst hdissolved
  exact ⟨hnested, hflat, chain, hchain, hflatChain⟩

end Pipeline
