import Pipeline.Proofs.Halting

/-!
# Steps one after another

`StepsComplete` is the run of a list of steps in which no step fails and none gives the signal that
ends a loop: each gets the register and the world that the one before it left.  A schema of such
steps ends with the last register, whatever its policy for failures (`StepsComplete.ends`).
`PairEnds` has every way in which two steps can end with fast exit.

A step with an action ends with what the action gives on the part of the register that its view
selects (`action_ends`).
-/

namespace Pipeline

/-! ## Steps that complete -/

/-- Each step gives a register and leaves a world, from which the next one goes on. -/
inductive StepsComplete (e : Evaluator) :
    List Component → Record → World → Record → World → Prop
  | nil {register : Record} {w : World} : StepsComplete e [] register w register w
  | cons {step : Component} {rest : List Component} {register r last : Record} {w u w' : World} :
      step.Ends e register w (.ok (.next r)) u → StepsComplete e rest r u last w' →
        StepsComplete e (step :: rest) register w last w'

namespace StepsComplete

variable {e : Evaluator} {steps : List Component} {register last : Record} {w w' : World}

theorem append {steps' : List Component} {r : Record} {u : World}
    (h : StepsComplete e steps register w r u) (h' : StepsComplete e steps' r u last w') :
    StepsComplete e (steps ++ steps') register w last w' := by
  induction h with
  | nil => exact h'
  | cons hstep _ ih => exact .cons hstep (ih h')

/-- Enough rounds for every step are enough for all of them. -/
theorem runSteps (h : StepsComplete e steps register w last w') (name : String) :
    ∃ n, ∀ m, n ≤ m → ∀ index,
      (runSteps m name steps e index register).ending w = some (.ok (.next last), w') := by
  induction h with
  | nil => exact ⟨0, fun _ _ _ => rfl⟩
  | cons hstep _ ih =>
    obtain ⟨events, k, hstep⟩ := hstep
    obtain ⟨n, hrest⟩ := ih
    refine ⟨max k n, fun m hm index => ?_⟩
    rw [runSteps_cons, ending_afterStep,
      Process.ending_of_some (Component.run_of_le (by omega : k ≤ m) hstep)]
    exact hrest m (by omega) (index + 1)

/-- A schema of steps that complete gives the register of the last one. -/
theorem ends (h : StepsComplete e steps register w last w') (name : String) :
    (Component.schema name steps).Ends e register w (.ok (.next last)) w' := by
  obtain ⟨n, hrun⟩ := h.runSteps name
  exact Component.ends_iff.mpr ⟨n, hrun n (Nat.le_refl n) 0⟩

end StepsComplete

/-! ## Actions as steps -/

/-- What an action gives on the part of a register that a view selects. -/
def Action.outputOn (a : Action) (view : View) (register : Record) :
    Except ExecutionError Output :=
  (view.select register).bind a.execute

/-- Running an action has no effect on the world, and ends with what the action gives. -/
theorem runAction_apply (name : String) (view : View) (a : Action) (e : Evaluator)
    (register : Record) (w : World) :
    ∃ events, runAction name view a e register w =
      ⟨((a.outputOn view register).map fun output => .next (view.write register output)).mapError
        (.action name), events, w⟩ := by
  rw [runAction, Action.outputOn]
  cases view.select register with
  | error error => exact ⟨[], rfl⟩
  | ok data =>
    change ∃ events, (Effect.ofExcept (.ok data) >>= _) w = _
    rw [Effect.ofExcept_ok_bind, Except.bind]
    cases a.execute data with
    | error error => exact ⟨[], rfl⟩
    | ok output => exact ⟨e.logger.log (.actionExecuted name) ++ [], rfl⟩

theorem action_ends (name : String) (view : View) (a : Action) (e : Evaluator) (register : Record)
    (w : World) :
    (Component.action name view a).Ends e register w
      (((a.outputOn view register).map fun output => .next (view.write register output)).mapError
        (.action name)) w := by
  obtain ⟨events, hrun⟩ := runAction_apply name view a e register w
  exact ⟨events, 0, congrArg some hrun⟩

/-- A step with an action succeeds when the action does. -/
theorem action_succeeds_iff {name : String} {view : View} {a : Action} {e : Evaluator}
    {register : Record} {w : World} :
    (∃ outcome, (Component.action name view a).Ends e register w (.ok outcome) w) ↔
      ∃ output, a.outputOn view register = .ok output := by
  have hends := action_ends name view a e register w
  constructor
  · rintro ⟨outcome, hok⟩
    obtain ⟨hresult, -⟩ := hends.unique hok
    cases houtput : a.outputOn view register with
    | error error => rw [houtput] at hresult; cases hresult
    | ok output => exact ⟨output, rfl⟩
  · rintro ⟨output, houtput⟩
    rw [houtput] at hends
    exact ⟨_, hends⟩

/-! ## Two steps -/

/-- How a schema of two steps ends with fast exit. -/
inductive PairEnds (e : Evaluator) (name : String) (first second : Component) (register : Record)
    (w : World) : Except ExecutionError Outcome → World → Prop
  | failed {error : ExecutionError} {w' : World} :
      first.Ends e register w (.error error) w' →
        PairEnds e name first second register w (.error (.schemaFailed name 0 first.name error)) w'
  | exited {r : Record} {w' : World} :
      first.Ends e register w (.ok (.exitLoop r)) w' →
        PairEnds e name first second register w (.ok (.exitLoop r)) w'
  | failedNext {r : Record} {error : ExecutionError} {u w' : World} :
      first.Ends e register w (.ok (.next r)) u →
        second.Ends e r u (.error error) w' →
        PairEnds e name first second register w (.error (.schemaFailed name 1 second.name error)) w'
  | completed {r : Record} {outcome : Outcome} {u w' : World} :
      first.Ends e register w (.ok (.next r)) u →
        second.Ends e r u (.ok outcome) w' →
        PairEnds e name first second register w (.ok outcome) w'

theorem ends_pair_iff {e : Evaluator} (hfast : e.fastExit = true) {name : String}
    {first second : Component} {register : Record} {w w' : World}
    {result : Except ExecutionError Outcome} :
    (Component.schema name [first, second]).Ends e register w result w' ↔
      PairEnds e name first second register w result w' := by
  have hrun (n : Nat) : ((Component.schema name [first, second]).run n e register).ending w =
      (afterStep e name 0 first.name register (first.run n e register) fun r =>
        afterStep e name 1 second.name r (second.run n e r) fun r => pure (.next r)).ending w := rfl
  rw [Component.ends_iff]
  simp only [hrun, ending_afterStep, hfast, if_true]
  constructor
  · rintro ⟨n, h⟩
    have hends {c : Component} {r : Record} {u v : World} {answer : Except ExecutionError Outcome}
        (hc : (c.run n e r).ending u = some (answer, v)) : c.Ends e r u answer v :=
      Component.ends_iff.mpr ⟨n, hc⟩
    rcases hfirst : (first.run n e register).ending w with _ | ⟨error | (r | r), u⟩
    · rw [hfirst] at h
      cases h
    · rw [hfirst] at h
      cases h
      exact .failed (hends hfirst)
    · rw [hfirst] at h
      dsimp only at h
      rcases hsecond : (second.run n e r).ending u with _ | ⟨error | (r' | r'), v⟩ <;>
        rw [hsecond] at h <;> cases h
      · exact .failedNext (hends hfirst) (hends hsecond)
      · exact .completed (hends hfirst) (hends hsecond)
      · exact .completed (hends hfirst) (hends hsecond)
    · rw [hfirst] at h
      cases h
      exact .exited (hends hfirst)
  · intro h
    cases h with
    | failed h =>
      obtain ⟨n, h⟩ := Component.ends_iff.mp h
      exact ⟨n, by rw [h]⟩
    | exited h =>
      obtain ⟨n, h⟩ := Component.ends_iff.mp h
      exact ⟨n, by rw [h]⟩
    | failedNext h h' =>
      obtain ⟨n, h, h'⟩ := h.ending_both h'
      exact ⟨n, by rw [h]; dsimp only; rw [h']⟩
    | @completed r outcome u w' h h' =>
      obtain ⟨n, h, h'⟩ := h.ending_both h'
      refine ⟨n, ?_⟩
      rw [h]
      dsimp only
      rw [h']
      cases outcome <;> rfl

end Pipeline
