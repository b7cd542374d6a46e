import Pipeline.Interpreter
import Pipeline.Proofs.Process

/-!
# What a construct does

One equation for each construct that looks at how a part of it ended.
`evaluateIn_apply` says what an evaluator does with its component's run, and
`afterStep_apply` what a schema does with a step's.  Both list every case, so that a
proof about runs splits on the part's run and unfolds nothing.  `evaluateIn_eq_some` and
`afterStep_eq_some` are the same read backward, from the run of the whole to that of the
part.
-/

namespace Pipeline

/-! ## Evaluators -/

/-- A run that leaves an evaluator: a failure is logged and gets the evaluator's
name. -/
theorem evaluateIn_apply (e : Evaluator) (body : Course Outcome) (w : World) :
    evaluateIn e body w =
      match body w with
      | none => none
      | some ⟨.ok outcome, events, w'⟩ => some ⟨.ok outcome, events, w'⟩
      | some ⟨.error error, events, w'⟩ =>
        some ⟨.error (.evaluator e.name error),
          events ++ e.logger.log (.evaluationFailed e.name error), w'⟩ := by
  unfold evaluateIn
  cases h : body w with
  | none => rw [Process.bind_of_none (Process.attempt_of_none h)]
  | some z =>
    rw [Process.bind_of_ok (Process.attempt_of_some h)]
    obtain ⟨error | outcome, events, w'⟩ := z
    · simp only
      rw [Process.bind_of_ok (Process.emit_apply _ _)]
      simp [Process.throw_apply, Run.after]
    · simp [Process.pure_apply, Run.after]

/-- An evaluator hands on a value, and puts its layer around an error. -/
theorem evaluateIn_eq_some {e : Evaluator} {body : Course Outcome} {w : World}
    {z : Run World ExecutionError Outcome} :
    evaluateIn e body w = some z ↔
      (∃ outcome events w', body w = some ⟨.ok outcome, events, w'⟩ ∧
        z = ⟨.ok outcome, events, w'⟩) ∨
      ∃ error events w', body w = some ⟨.error error, events, w'⟩ ∧
        z = ⟨.error (.evaluator e.name error),
          events ++ e.logger.log (.evaluationFailed e.name error), w'⟩ := by
  rw [evaluateIn_apply]
  constructor
  · intro h
    split at h
    next => cases h
    next hbody => exact .inl ⟨_, _, _, hbody, (Option.some.inj h).symm⟩
    next hbody => exact .inr ⟨_, _, _, hbody, (Option.some.inj h).symm⟩
  · rintro (⟨outcome, events, w', hbody, rfl⟩ | ⟨error, events, w', hbody, rfl⟩)
    · rw [hbody]
    · rw [hbody]

/-- An evaluator gives what its component gives. -/
theorem evaluateIn_eq_ok {e : Evaluator} {body : Course Outcome} {w w' : World}
    {outcome : Outcome} {events : List Event} :
    evaluateIn e body w = some ⟨.ok outcome, events, w'⟩ ↔
      body w = some ⟨.ok outcome, events, w'⟩ := by
  rw [evaluateIn_eq_some]
  constructor
  · rintro (⟨_, _, _, h, hz⟩ | ⟨_, _, _, _, hz⟩)
    · cases hz
      exact h
    · cases hz
  · exact fun h => .inl ⟨outcome, events, w', h, rfl⟩

/-- An evaluator ends as its component does, in its layer. -/
theorem ending_evaluateIn (e : Evaluator) (body : Course Outcome) (w : World) :
    (evaluateIn e body).ending w = (body.mapError (.evaluator e.name)).ending w := by
  rw [Process.ending, evaluateIn_apply, Process.ending, Process.mapError]
  rcases body w with _ | ⟨error | outcome, events, w'⟩
  · rfl
  · rfl
  · rfl

/-! ## Schemas -/

/-- What a schema does once a step has run, given how the other steps run. -/
def afterStep (e : Evaluator) (name : String) (index : Nat) (component : String)
    (register : Record) (step : Course Outcome) (next : Record → Course Outcome) :
    Course Outcome := do
  match ← step.attempt with
  | .ok (.next register) =>
    Process.emit (e.logger.log (.stepCompleted name index component))
    next register
  | .ok (.exitLoop register) => pure (.exitLoop register)
  | .error error =>
    Process.emit (e.logger.log (.stepFailed name index component error))
    if e.fastExit then throw (.schemaFailed name index component error)
    else
      Process.emit (e.logger.log (.stepSkipped name index))
      next register

theorem runSteps_cons (rounds : Nat) (name : String) (step : Component) (rest : List Component)
    (e : Evaluator) (index : Nat) (register : Record) :
    runSteps rounds name (step :: rest) e index register =
      afterStep e name index step.name register (step.run rounds e register)
        (runSteps rounds name rest e (index + 1)) := rfl

/-- The four ways a step can end, and what its schema does then. -/
theorem afterStep_apply (e : Evaluator) (name : String) (index : Nat) (component : String)
    (register : Record) (step : Course Outcome) (next : Record → Course Outcome) (w : World) :
    afterStep e name index component register step next w =
      match step w with
      | none => none
      | some ⟨.ok (.next r), events, w'⟩ =>
        (next r w').map (·.after (events ++ e.logger.log (.stepCompleted name index component)))
      | some ⟨.ok (.exitLoop r), events, w'⟩ => some ⟨.ok (.exitLoop r), events, w'⟩
      | some ⟨.error error, events, w'⟩ =>
        let failed := events ++ e.logger.log (.stepFailed name index component error)
        if e.fastExit then some ⟨.error (.schemaFailed name index component error), failed, w'⟩
        else (next register w').map
          (·.after (failed ++ e.logger.log (.stepSkipped name index))) := by
  unfold afterStep
  cases h : step w with
  | none => rw [Process.bind_of_none (Process.attempt_of_none h)]
  | some z =>
    rw [Process.bind_of_ok (Process.attempt_of_some h)]
    obtain ⟨error | (r | r), events, w'⟩ := z
    · simp only
      rw [Process.bind_of_ok (Process.emit_apply _ _)]
      cases e.fastExit with
      | true => simp [Process.throw_apply, Run.after]
      | false =>
        rw [if_neg Bool.false_ne_true, Process.bind_of_ok (Process.emit_apply _ _)]
        simp [Function.comp_def]
    · simp only
      rw [Process.bind_of_ok (Process.emit_apply _ _)]
      simp [Function.comp_def]
    · simp [Process.pure_apply, Run.after]

/-- What a schema does once a step has run, by how the step ended: it goes on after a
completed step, ends with a signal, ends with a failed step, or skips one. -/
inductive StepRun (e : Evaluator) (name : String) (index : Nat) (component : String)
    (register : Record) (step : Course Outcome) (next : Record → Course Outcome) (w : World) :
    Run World ExecutionError Outcome → Prop
  | completed {r : Record} {events : List Event} {w' : World}
      {rest : Run World ExecutionError Outcome} :
      step w = some ⟨.ok (.next r), events, w'⟩ → next r w' = some rest →
        StepRun e name index component register step next w
          (rest.after (events ++ e.logger.log (.stepCompleted name index component)))
  | exited {r : Record} {events : List Event} {w' : World} :
      step w = some ⟨.ok (.exitLoop r), events, w'⟩ →
        StepRun e name index component register step next w ⟨.ok (.exitLoop r), events, w'⟩
  | failed {error : ExecutionError} {events : List Event} {w' : World} :
      step w = some ⟨.error error, events, w'⟩ → e.fastExit = true →
        StepRun e name index component register step next w
          ⟨.error (.schemaFailed name index component error),
            events ++ e.logger.log (.stepFailed name index component error), w'⟩
  | skipped {error : ExecutionError} {events : List Event} {w' : World}
      {rest : Run World ExecutionError Outcome} :
      step w = some ⟨.error error, events, w'⟩ → e.fastExit = false →
        next register w' = some rest →
        StepRun e name index component register step next w
          (rest.after (events ++ e.logger.log (.stepFailed name index component error) ++
            e.logger.log (.stepSkipped name index)))

theorem afterStep_eq_some {e : Evaluator} {name : String} {index : Nat} {component : String}
    {register : Record} {step : Course Outcome} {next : Record → Course Outcome} {w : World}
    {z : Run World ExecutionError Outcome} :
    afterStep e name index component register step next w = some z ↔
      StepRun e name index component register step next w z := by
  rw [afterStep_apply]
  constructor
  · intro h
    cases hstep : step w with
    | none => rw [hstep] at h; cases h
    | some run =>
      rw [hstep] at h
      obtain ⟨error | (r | r), events, w'⟩ := run
      · cases hfast : e.fastExit with
        | true =>
          rw [hfast] at h
          cases h
          exact .failed hstep hfast
        | false =>
          rw [hfast] at h
          obtain ⟨rest, hnext, rfl⟩ := Option.map_eq_some_iff.mp h
          exact .skipped hstep hfast hnext
      · obtain ⟨rest, hnext, rfl⟩ := Option.map_eq_some_iff.mp h
        exact .completed hstep hnext
      · cases h
        exact .exited hstep
  · intro h
    cases h with
    | completed hstep hnext => simp [hstep, hnext]
    | exited hstep => simp [hstep]
    | failed hstep hfast => simp [hstep, hfast]
    | skipped hstep hfast hnext => simp [hstep, hfast, hnext]

/-- How a schema ends, given how its step ended. -/
theorem ending_afterStep (e : Evaluator) (name : String) (index : Nat) (component : String)
    (register : Record) (step : Course Outcome) (next : Record → Course Outcome) (w : World) :
    (afterStep e name index component register step next).ending w =
      match step.ending w with
      | none => none
      | some (.ok (.next r), w') => (next r).ending w'
      | some (.ok (.exitLoop r), w') => some (.ok (.exitLoop r), w')
      | some (.error error, w') =>
        if e.fastExit then some (.error (.schemaFailed name index component error), w')
        else (next register).ending w' := by
  rw [Process.ending, afterStep_apply]
  cases h : step w with
  | none => rw [Process.ending_of_none h]; rfl
  | some z =>
    rw [Process.ending_of_some h]
    obtain ⟨error | (r | r), events, w'⟩ := z
    · cases e.fastExit with
      | true => rfl
      | false => exact Process.map_after_ending _ _
    · exact Process.map_after_ending _ _
    · rfl

/-! ## Lists -/

/-- The list at a key is what the register holds there. -/
theorem listAt_eq_ok {register : Record} {key : String} {items : List Value} :
    listAt register key = .ok items ↔ register.get? key = some (.list items) := by
  unfold listAt
  split
  · next h => simp [h]
  · next v hlist h =>
    refine iff_of_false (fun herror => ?_) fun hitems => ?_
    · cases herror
    · exact hlist items (Option.some.inj (h.symm.trans hitems))
  · next h => simp [h]

theorem listAt_insert (register : Record) (key : String) (items : List Value) :
    listAt (register.insert key (.list items)) key = .ok items := by
  rw [listAt_eq_ok, Ascending.get?_insert, if_pos rfl]

theorem Value.eq_of_expectRecord {v : Value} {record : Record} (h : v.expectRecord = .ok record) :
    v = .mapping record := by
  cases v with
  | mapping r => cases h; rfl
  | null | bool | number | string | list => cases h

/-! ## Loops -/

/-- The rounds of a loop in an evaluator. -/
def loopRounds (rounds : Nat) (name : String) (body : Component) (condition : Option Predicate)
    (bound : Option Nat) (e : Evaluator) (register : Record) : Course LoopEnd :=
  runRounds (fun r => evaluateIn (e.child name) (body.run rounds (e.child name) r))
    (fun r => holds rounds condition e r) bound rounds 0 register

/-- A loop goes its rounds, reports how they ended, and gives the register. -/
theorem run_loop (rounds : Nat) (name : String) (body : Component)
    (condition : Option Predicate) (bound : Option Nat) (e : Evaluator) (register : Record) :
    (Component.loop name body condition bound).run rounds e register = (do
      let finish ← loopRounds rounds name body condition bound e register
      Process.emit (e.logger.log (.loopFinished name finish.iterations finish.exited))
      pure (.next finish.register)) := rfl

end Pipeline
