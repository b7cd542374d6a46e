import Pipeline.Proofs.MemoryActions
import Pipeline.Proofs.Simulation

/-!
# What leaves fail with

A leaf fails with a cause that is at hand, or with an error of its own work inside the
layer of the leaf.  `LeafLayers Q P` says that `P` holds of all such errors when `Q`
holds of those of the work; `Component.IsLeaf.fails` is the result about leaves.

`Component.fails` follows an error outward: what every error of a unit satisfies, and
what schemas and evaluators keep with their layers, every error of a run satisfies.
-/

namespace Pipeline

/-- The error is a cause, in no layer. -/
def ExecutionError.IsCause : ExecutionError → Prop
  | .action .. | .executable .. | .schemaFailed .. | .evaluator .. => False
  | _ => True

/-- `P` holds of the errors of a leaf when `Q` holds of those of its work. -/
structure LeafLayers (Q P : ExecutionError → Prop) : Prop where
  cause : ∀ error : ExecutionError, error.IsCause → Q error ∧ P error
  action : ∀ {name : String} {error : ExecutionError}, Q error → P (.action name error)
  executable : ∀ {name : String} {error : ExecutionError}, Q error → P (.executable name error)

/-- `Q` holds of the errors of the component's own work. -/
def Component.WorkFails (Q : ExecutionError → Prop) : Component → Prop
  | .action _ _ a => ∀ v error, a.execute v = .error error → Q error
  | .executable _ _ x => ∀ data e, (x.invoke data e).Fails Q
  | _ => True

/-- `Q` holds of the errors of a test. -/
def Predicate.TestFails (Q : ExecutionError → Prop) : Predicate → Prop
  | .test check => ∀ register e, (check register e).Fails Q
  | _ => True

/-! ## Causes -/

/-- A view fails with a cause: there is nothing at its key. -/
theorem View.select_error {view : View} {register : Record} {error : ExecutionError}
    (h : view.select register = .error error) : error.IsCause := by
  unfold View.select at h
  split at h
  · cases h
  · split at h <;> cases h
    trivial

theorem Value.expectRecord_error {v : Value} {error : ExecutionError}
    (h : v.expectRecord = .error error) : error.IsCause := by
  cases v <;> cases h <;> trivial

theorem listAt_error {register : Record} {key : String} {error : ExecutionError}
    (h : listAt register key = .error error) : error.IsCause := by
  unfold listAt at h
  split at h <;> cases h <;> trivial

/-- Data that do not fit fail with a cause. -/
theorem DataSchema.apply_error {s : DataSchema} {data : Record} {error : ExecutionError}
    (h : s.apply data = .error error) : error.IsCause := by
  unfold DataSchema.apply at h
  cases hcheck : s.check data with
  | ok r => rw [hcheck] at h; cases h
  | error reason => rw [hcheck] at h; cases h; trivial

theorem Evaluator.getMemory_fails (e : Evaluator) (register : Record)
    (identifiers : List Identifier) (default : Record) (delete : Bool) :
    (e.getMemory register identifiers default delete).Fails ExecutionError.IsCause :=
  Effect.Fails.mapError_of_forall fun _ => trivial

/-- Storing fails with a cause: the key has no value, or memory refuses. -/
theorem Evaluator.setMemory_fails (e : Evaluator) (register : Record) (getKey : Option String)
    (key : String) : (e.setMemory register getKey key).Fails ExecutionError.IsCause := by
  have hset (value : Value) :
      (World.onMemory e.memory (Memory.set key value)).Fails ExecutionError.IsCause :=
    Effect.Fails.mapError_of_forall fun _ => trivial
  cases getKey with
  | none => exact (Effect.Fails.pure _).bind hset
  | some k =>
    cases hget : register.get? k with
    | none =>
      have hthrow : (throw (.missingKey k) : Act Value).Fails ExecutionError.IsCause :=
        Effect.Fails.throw trivial
      simp only [Evaluator.setMemory, hget]
      exact hthrow.bind hset
    | some v =>
      simp only [Evaluator.setMemory, hget]
      exact (Effect.Fails.pure v).bind hset

/-! ## Leaves -/

section

variable {Q P : ExecutionError → Prop} (L : LeafLayers Q P)

include L

theorem Effect.Fails.of_cause {α : Type} {x : Act α} (h : x.Fails ExecutionError.IsCause) :
    x.Fails P :=
  h.mono fun _ he => (L.cause _ he).2

/-- An action fails as its work does, or with a cause in the layer of the action. -/
theorem runAction_fails (name : String) (view : View) {action : Action}
    (h : ∀ v error, action.execute v = .error error → Q error) (e : Evaluator)
    (register : Record) : (runAction name view action e register).Fails P := by
  refine (Effect.Fails.ofExcept_mapError fun _ herror => ?_).bind fun data => ?_
  · exact L.action (L.cause _ (View.select_error herror)).1
  · refine (Effect.Fails.ofExcept_mapError fun _ herror => L.action (h data _ herror)).bind ?_
    exact fun output => (Effect.Fails.emit _).bind fun _ => Effect.Fails.pure _

theorem Executable.execute_fails {x : Executable} (h : ∀ data e, (x.invoke data e).Fails Q)
    (data : Record) (e : Evaluator) : (x.execute data e).Fails P := by
  refine Effect.Fails.mapError (P := Q) ?_ fun _ => L.executable
  refine (Effect.Fails.ofExcept fun error herror => ?_).bind fun input => ?_
  · exact (L.cause _ (DataSchema.apply_error herror)).1
  · refine (h input e).bind fun output => ?_
    exact Effect.Fails.ofExcept fun _ herror => (L.cause _ (DataSchema.apply_error herror)).1

theorem executeEach_fails (name : String) {x : Executable}
    (h : ∀ data e, (x.invoke data e).Fails Q) (e : Evaluator) (items : List Value) :
    (executeEach name x e items).Fails P := by
  induction items with
  | nil => exact Effect.Fails.pure _
  | cons item rest ih =>
    refine (Effect.Fails.ofExcept_mapError fun _ herror => ?_).bind fun record => ?_
    · exact L.executable (L.cause _ (Value.expectRecord_error herror)).1
    · refine (Executable.execute_fails L h record e).bind fun output => ?_
      exact ih.bind fun results => Effect.Fails.pure _

theorem executeSelected_fails (name : String) {x : Executable}
    (h : ∀ data e, (x.invoke data e).Fails Q) (e : Evaluator) (v : Value) :
    (executeSelected name x e v).Fails P := by
  cases v with
  | mapping record =>
    exact (Executable.execute_fails L h record e).bind fun output => Effect.Fails.pure _
  | list items =>
    exact (executeEach_fails L name h e items).bind fun results => Effect.Fails.pure _
  | null | bool | number | string =>
    exact Effect.Fails.throw (L.executable (L.cause (.invalidInput _) trivial).1)

/-- So does an executable. -/
theorem runExecutable_fails (name : String) (view : View) {x : Executable}
    (h : ∀ data e, (x.invoke data e).Fails Q) (e : Evaluator) (register : Record) :
    (runExecutable name view x e register).Fails P := by
  refine (Effect.Fails.ofExcept_mapError fun _ herror => ?_).bind fun data => ?_
  · exact L.executable (L.cause _ (View.select_error herror)).1
  · refine (executeSelected_fails L name h e data).bind fun (output, items) => ?_
    exact (Effect.Fails.emit _).bind fun _ => Effect.Fails.pure _

/-- What holds of the errors of a leaf's work holds of the leaf's errors. -/
theorem Component.IsLeaf.fails {c : Component} (hc : c.IsLeaf) (h : c.WorkFails Q) (rounds : Nat)
    (e : Evaluator) (register : Record) : (c.run rounds e register).Fails P := by
  cases c with
  | action name view action =>
    have hexecute : ∀ v error, action.execute v = .error error → Q error := h
    exact .ofEffect (runAction_fails L name view hexecute e register)
  | executable name view x =>
    have hinvoke : ∀ data e, (x.invoke data e).Fails Q := h
    exact .ofEffect (runExecutable_fails L name view hinvoke e register)
  | exit name => exact .pure _
  | log name spec =>
    obtain ⟨level, _ | logger, message, opening, closing, includeInput⟩ := spec
    · exact .ofEffect ((Effect.Fails.emit _).bind fun _ => Effect.Fails.pure _)
    · exact .ofEffect ((Effect.Fails.emit _).bind fun _ => Effect.Fails.pure _)
  | setMemory name key getKey instruction =>
    refine .ofEffect (((e.setMemory_fails register getKey key).of_cause L).bind fun _ => ?_)
    cases instruction with
    | set => exact Effect.Fails.pure _
    | move => cases getKey <;> exact Effect.Fails.pure _
  | getMemory name identifiers default instruction =>
    refine .ofEffect (((e.getMemory_fails register identifiers default _).of_cause L).bind ?_)
    exact fun _ => Effect.Fails.pure _
  | deleteMemory name keys =>
    have hmemory {x : Store.Action Unit} : (World.onMemory e.memory x).Fails P :=
      Effect.Fails.mapError_of_forall fun error => (L.cause (.memory error) trivial).2
    refine .ofEffect ?_
    unfold runDeleteMemory
    cases keys.isEmpty with
    | true => exact hmemory.bind fun _ => Effect.Fails.pure _
    | false => exact hmemory.bind fun _ => Effect.Fails.pure _
  | schema | loop | forEach | filter | switch | evaluator => cases hc

end

/-! ## Runs -/

/-- `P` holds of an error in the layers that schemas and evaluators put around it. -/
structure RunLayers (P : ExecutionError → Prop) : Prop where
  schema : ∀ {name : String} {step : Nat} {component : String} {error : ExecutionError},
    P error → P (.schemaFailed name step component error)
  evaluator : ∀ {name : String} {error : ExecutionError}, P error → P (.evaluator name error)

section

variable {Q P : ExecutionError → Prop}

/-- An evaluator's errors are those of its component in its layer. -/
theorem Process.Fails.within {R : ExecutionError → Prop} {e : Evaluator} {body : Course Outcome}
    (h : body.Fails P) (hlayer : ∀ error, P error → R (.evaluator e.name error)) :
    (evaluateIn e body).Fails R := by
  intro w error events w' hrun
  obtain ⟨outcome, before, mid, _, hz⟩ | ⟨inner, before, mid, hbody, hz⟩ :=
    evaluateIn_eq_some.mp hrun
  · cases hz
  · cases hz
    exact hlayer inner (h hbody)

/-- A schema's errors are those of a step in its layer, and those of the other steps. -/
theorem Process.Fails.afterStep {R : ExecutionError → Prop} {e : Evaluator} {name : String}
    {index : Nat} {component : String} {step : Course Outcome} {next : Record → Course Outcome}
    (register : Record) (hstep : step.Fails P)
    (hlayer : ∀ error, P error → R (.schemaFailed name index component error))
    (hnext : ∀ r, (next r).Fails R) :
    (Pipeline.afterStep e name index component register step next).Fails R := by
  intro w error events w' hrun
  generalize hz : (⟨.error error, events, w'⟩ : Run World ExecutionError Outcome) = z at hrun
  cases afterStep_eq_some.mp hrun with
  | @completed r before mid rest _ hrest =>
    obtain ⟨result, second, last⟩ := rest
    cases hz
    exact hnext r hrest
  | exited => cases hz
  | failed hfailed => cases hz; exact hlayer _ (hstep hfailed)
  | @skipped inner before mid rest _ _ hrest =>
    obtain ⟨result, second, last⟩ := rest
    cases hz
    exact hnext register hrest

theorem evaluateIn_fails (K : RunLayers P) (e : Evaluator) {body : Course Outcome}
    (h : body.Fails P) : (evaluateIn e body).Fails P :=
  h.within fun _ => K.evaluator

theorem afterStep_fails (K : RunLayers P) (e : Evaluator) (name : String) (index : Nat)
    (component : String) (register : Record) {step : Course Outcome}
    {next : Record → Course Outcome} (hstep : step.Fails P) (hnext : ∀ r, (next r).Fails P) :
    (afterStep e name index component register step next).Fails P :=
  hstep.afterStep register (fun _ => K.schema) hnext

/-- What the errors of leaves and the layers of runs have in common, all errors have. -/
theorem Process.Fails.simulation (L : LeafLayers Q P) (K : RunLayers P)
    (hQP : ∀ error, Q error → P error) (rounds : Nat) :
    Simulation rounds rounds Eq (fun x _ => x.Fails P) (fun _ => Component.WorkFails Q)
      (fun _ => Predicate.TestFails Q) where
  le := Nat.le_refl rounds
  endless _ := endless
  pure a := pure a
  list register key := ofEffect (.ofExcept fun _ herror => (L.cause _ (listAt_error herror)).2)
  element item :=
    ofEffect (.ofExcept fun _ herror => (L.cause _ (Value.expectRecord_error herror)).2)
  bind := bind
  child name he := by rw [he]
  emit message _ _ := ofEffect (.emit _)
  within _ h := evaluateIn_fails K _ h
  step name index component register _ hstep hnext :=
    afterStep_fails K _ name index component register hstep hnext
  leaf c register hc h _ := hc.fails L h rounds _ register
  nested context body register _ ih := evaluateIn_fails K context (ih context rfl)
  test check register h _ := ofEffect ((h register _).mono hQP)
  fetch _ _ _ register identifiers _ _ :=
    ofEffect ((Evaluator.getMemory_fails _ register identifiers ∅ false).of_cause L)

/-- What holds of the errors of all units holds of the errors of a run, if the layers of
schemas and evaluators keep it. -/
theorem Component.fails (L : LeafLayers Q P) (K : RunLayers P) (hQP : ∀ error, Q error → P error)
    {c : Component} (h : c.Every (Component.WorkFails Q) (Predicate.TestFails Q)) (rounds : Nat)
    (e : Evaluator) (register : Record) : (c.run rounds e register).Fails P :=
  (Process.Fails.simulation L K hQP rounds).run c h rfl register

end

end Pipeline
