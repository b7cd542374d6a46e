import Pipeline.Proofs.Labels

/-!
# Loops as bounded iteration

A loop stands at a register after every completed round (`RoundsDone`), and it stops there for
one of five reasons (`LoopStops`): the bound is reached, the condition does not hold, the body
gives the signal, or one of the two fails.  Both relations are about runs of the condition and
of the body alone, each with as many rounds as it needs.  A loop halts just where they say
(`loop_halts_iff`).

With a bound, without condition and with fast exit, a loop does what a schema does whose steps
are so many copies of the body (`sameCause_loop`).  The loop's body runs in an evaluator of
its own and fails in another layer, so the two agree for a body that ignores names, and up to
the cause of an error.  The tests in the body have to ignore names too
(`unrolling_needs_tests`).
-/

namespace Pipeline

/-! ## The rounds of a loop -/

section

variable (name : String) (body : Component) (condition : Option Predicate) (bound : Option Nat)
variable (e : Evaluator)

/-- Where a loop stands after some completed rounds, and what it emitted.  In each of them the
bound was not reached, the condition held, and the body gave the register for the next. -/
inductive RoundsDone (register : Record) (w : World) : Nat → Record → World → List Event → Prop
  | start : RoundsDone register w 0 register w []
  | round {i : Nat} {r r' : Record} {v u v' : World} {events checked worked : List Event} :
      RoundsDone register w i r v events →
        bound ≠ some i →
        Decides condition e r v ⟨.ok true, checked, u⟩ →
        body.Evaluates (e.child name) r u ⟨.ok (.next r'), worked, v'⟩ →
        RoundsDone register w (i + 1) r' v' (events ++ (checked ++ worked))

/-- How a loop ends that stands at a register after some completed rounds. -/
inductive LoopStops (j : Nat) (r : Record) (v : World) : Run World ExecutionError Outcome → Prop
  /-- The bound is reached, and the condition is not asked. -/
  | bound :
      bound = some j →
        LoopStops j r v ⟨.ok (.next r), e.logger.log (.loopFinished name j false), v⟩
  | refused {checked : List Event} {u : World} :
      bound ≠ some j →
        Decides condition e r v ⟨.ok false, checked, u⟩ →
        LoopStops j r v
          ⟨.ok (.next r), checked ++ e.logger.log (.loopFinished name j false), u⟩
  | exited {x : Record} {checked worked : List Event} {u v' : World} :
      bound ≠ some j →
        Decides condition e r v ⟨.ok true, checked, u⟩ →
        body.Evaluates (e.child name) r u ⟨.ok (.exitLoop x), worked, v'⟩ →
        LoopStops j r v
          ⟨.ok (.next x), checked ++ worked ++ e.logger.log (.loopFinished name j true), v'⟩
  | conditionFailed {error : ExecutionError} {checked : List Event} {u : World} :
      bound ≠ some j →
        Decides condition e r v ⟨.error error, checked, u⟩ →
        LoopStops j r v ⟨.error error, checked, u⟩
  | bodyFailed {error : ExecutionError} {checked worked : List Event} {u v' : World} :
      bound ≠ some j →
        Decides condition e r v ⟨.ok true, checked, u⟩ →
        body.Evaluates (e.child name) r u ⟨.error error, worked, v'⟩ →
        LoopStops j r v ⟨.error error, checked ++ worked, v'⟩

end

/-- The run of a loop, given that of its rounds: it reports how they ended. -/
def LoopEnd.report (name : String) (e : Evaluator) (z : Run World ExecutionError LoopEnd) :
    Run World ExecutionError Outcome :=
  match z with
  | ⟨.ok finish, events, w⟩ =>
    ⟨.ok (.next finish.register),
      events ++ e.logger.log (.loopFinished name finish.iterations finish.exited), w⟩
  | ⟨.error error, events, w⟩ => ⟨.error error, events, w⟩


section

variable {name : String} {body : Component} {condition : Option Predicate} {bound : Option Nat}
variable {e : Evaluator} {register r : Record} {w v : World} {i j n k : Nat}

theorem run_loop_apply (n : Nat) (name : String) (body : Component)
    (condition : Option Predicate) (bound : Option Nat) (e : Evaluator) (register : Record)
    (w : World) :
    (Component.loop name body condition bound).run n e register w =
      (loopRounds n name body condition bound e register w).map (LoopEnd.report name e) := by
  rw [run_loop]
  rcases h : loopRounds n name body condition bound e register w with
    _ | ⟨error | finish, events, w'⟩
  · exact Process.bind_of_none h
  · exact Process.bind_of_error h
  · rw [Process.bind_of_ok h, Process.bind_of_ok (Process.emit_apply _ _)]
    simp [Process.pure_apply, Run.after, LoopEnd.report]

/-- The rounds of a loop that has enough of them, from where it stands. -/
abbrev roundsFrom (n : Nat) (name : String) (body : Component) (condition : Option Predicate)
    (bound : Option Nat) (e : Evaluator) (k i : Nat) (r : Record) : Course LoopEnd :=
  runRounds (body.evaluate n (e.child name)) (holds n condition e) bound k i r

/-- A loop goes a round only below its bound. -/
theorem RoundsDone.le_bound {events : List Event}
    (h : RoundsDone name body condition bound e register w i r v events) :
    ∀ b, bound = some b → i ≤ b := by
  induction h with
  | start => exact fun b _ => Nat.zero_le b
  | @round i _ _ _ _ _ _ _ _ _ hbound _ _ ih =>
    rintro b rfl
    have hle := ih b rfl
    have hne : b ≠ i := fun h => hbound (congrArg some h)
    omega

/-- Below its bound, a loop has reached it just when it stands there. -/
theorem reached_iff (hle : ∀ b, bound = some b → i ≤ b) :
    bound.any (· ≤ i) = true ↔ bound = some i := by
  cases bound with
  | none => simp
  | some b =>
    have hb := hle b rfl
    simp only [Option.any_some, decide_eq_true_eq, Option.some.injEq]
    omega

/-- What one round of a loop can do: it ends the loop, or it is completed and others follow. -/
theorem roundsFrom_cases {z : Run World ExecutionError LoopEnd}
    (hle : ∀ b, bound = some b → i ≤ b)
    (h : roundsFrom n name body condition bound e k i r v = some z) :
    LoopStops name body condition bound e i r v (LoopEnd.report name e z) ∨
    ∃ k' r' u v' checked worked rest, k = k' + 1 ∧ bound ≠ some i ∧
      Decides condition e r v ⟨.ok true, checked, u⟩ ∧
      body.Evaluates (e.child name) r u ⟨.ok (.next r'), worked, v'⟩ ∧
      roundsFrom n name body condition bound e k' (i + 1) r' v' = some rest ∧
      z = rest.after (checked ++ worked) := by
  unfold roundsFrom runRounds at h
  split at h
  next hreached =>
    cases h
    exact .inl (.bound ((reached_iff hle).mp hreached))
  next hreached =>
    have hbound : bound ≠ some i := fun hi => hreached ((reached_iff hle).mpr hi)
    obtain ⟨error, checked, u, hcheck, rfl⟩ | ⟨answer, checked, u, rest, hcheck, h, rfl⟩ :=
      Process.bind_eq_some.mp h
    · exact .inl (.conditionFailed hbound ⟨n, hcheck⟩)
    cases answer with
    | false =>
      cases h
      rw [Run.after, List.append_nil]
      exact .inl (.refused hbound ⟨n, hcheck⟩)
    | true =>
      cases k with
      | zero => cases h
      | succ k =>
        obtain ⟨error, worked, v', hwork, rfl⟩ | ⟨outcome, worked, v', rest, hwork, h, rfl⟩ :=
          Process.bind_eq_some.mp h
        · exact .inl (.bodyFailed hbound ⟨n, hcheck⟩ ⟨n, hwork⟩)
        cases outcome with
        | next r' =>
          exact .inr ⟨k, r', u, v', checked, worked, rest, rfl, hbound, ⟨n, hcheck⟩, ⟨n, hwork⟩,
            h, Run.after_after _ _ _⟩
        | exitLoop x =>
          cases h
          rw [Run.after_after, Run.after, List.append_nil]
          exact .inl (.exited hbound ⟨n, hcheck⟩ ⟨n, hwork⟩)

theorem LoopEnd.report_after (events : List Event) (z : Run World ExecutionError LoopEnd) :
    LoopEnd.report name e (z.after events) = (LoopEnd.report name e z).after events := by
  obtain ⟨error | finish, emitted, w⟩ := z
  · rfl
  · simp only [LoopEnd.report, Run.after, List.append_assoc]

/-- Rounds that gave an answer were some completed ones, and one that ended the loop. -/
theorem loopStops_of_roundsFrom {events : List Event} {z : Run World ExecutionError LoopEnd}
    (hdone : RoundsDone name body condition bound e register w i r v events)
    (h : roundsFrom n name body condition bound e k i r v = some z) :
    ∃ j r' v' before stop, RoundsDone name body condition bound e register w j r' v' before ∧
      LoopStops name body condition bound e j r' v' stop ∧
      (LoopEnd.report name e z).after events = stop.after before := by
  induction k generalizing i r v events z with
  | zero =>
    obtain hstops | ⟨_, _, _, _, _, _, _, hk, _⟩ := roundsFrom_cases hdone.le_bound h
    · exact ⟨i, r, v, events, _, hdone, hstops, rfl⟩
    · cases hk
  | succ k ih =>
    obtain hstops | ⟨k', r', u, v', checked, worked, rest, hk, hbound, hcheck, hwork, h, rfl⟩ :=
      roundsFrom_cases hdone.le_bound h
    · exact ⟨i, r, v, events, _, hdone, hstops, rfl⟩
    · cases hk
      rw [LoopEnd.report_after, Run.after_after]
      exact ih (hdone.round hbound hcheck hwork) h

/-! ### Enough rounds -/

section

variable (hle : ∀ b, bound = some b → i ≤ b) (hbound : bound ≠ some i)

include hle hbound

/-- Below its bound, a loop asks its condition first. -/
theorem roundsFrom_eq_bind :
    roundsFrom n name body condition bound e (k + 1) i r = (do
      if !(← holds n condition e r) then pure ⟨r, i, false⟩
      else
        match ← body.evaluate n (e.child name) r with
        | .next r => roundsFrom n name body condition bound e k (i + 1) r
        | .exitLoop x => pure ⟨x, i, true⟩) := by
  rw [roundsFrom, runRounds]
  exact if_neg fun h => hbound ((reached_iff hle).mp h)

variable {u : World} {checked : List Event}

theorem roundsFrom_of_held (hcheck : holds n condition e r v = some ⟨.ok true, checked, u⟩) :
    roundsFrom n name body condition bound e (k + 1) i r v =
      ((body.evaluate n (e.child name) r >>= fun outcome =>
        match outcome with
        | .next r => roundsFrom n name body condition bound e k (i + 1) r
        | .exitLoop x => pure ⟨x, i, true⟩) u).map (·.after checked) := by
  rw [roundsFrom_eq_bind hle hbound, Process.bind_of_ok hcheck]
  rfl

/-- A completed round goes on to the next. -/
theorem roundsFrom_of_round {r' : Record} {v' : World} {worked : List Event}
    (hcheck : holds n condition e r v = some ⟨.ok true, checked, u⟩)
    (hwork : body.evaluate n (e.child name) r u = some ⟨.ok (.next r'), worked, v'⟩) :
    roundsFrom n name body condition bound e (k + 1) i r v =
      (roundsFrom n name body condition bound e k (i + 1) r' v').map
        (·.after (checked ++ worked)) := by
  rw [roundsFrom_of_held hle hbound hcheck, Process.bind_of_ok hwork, Option.map_map]
  simp only [Function.comp_def, Run.after_after]

end

/-- With enough rounds, a loop goes the completed ones and goes on from there. -/
theorem RoundsDone.rounds {events : List Event}
    (h : RoundsDone name body condition bound e register w i r v events) :
    ∃ m, ∀ n, m ≤ n → ∀ k, roundsFrom n name body condition bound e (k + i) 0 register w =
      (roundsFrom n name body condition bound e k i r v).map (·.after events) := by
  induction h with
  | start => exact ⟨0, fun n _ k => by simp⟩
  | @round i r r' v u v' events checked worked hdone hbound hcheck hwork ih =>
    obtain ⟨m, hm⟩ := ih
    obtain ⟨a, hcheck⟩ := hcheck
    obtain ⟨b, hwork⟩ := hwork
    refine ⟨max m (max a b), fun n hn k => ?_⟩
    have hcheck : holds n condition e r v = some _ := holds_of_le (by omega) hcheck
    have hwork : body.evaluate n (e.child name) r u = some _ :=
      Component.evaluate_of_le (by omega) hwork
    rw [show k + (i + 1) = (k + 1) + i by omega, hm n (by omega),
      roundsFrom_of_round hdone.le_bound hbound hcheck hwork, Option.map_map]
    simp only [Function.comp_def, Run.after_after]

/-- With enough rounds, a loop ends where it stops. -/
theorem LoopStops.rounds {z : Run World ExecutionError Outcome}
    (h : LoopStops name body condition bound e j r v z) (hle : ∀ b, bound = some b → j ≤ b) :
    ∃ m, ∀ n, m ≤ n → ∀ k,
      (roundsFrom n name body condition bound e (k + 1) j r v).map (LoopEnd.report name e) =
        some z := by
  cases h with
  | bound hreached =>
    refine ⟨0, fun n _ k => ?_⟩
    rw [roundsFrom, runRounds, if_pos ((reached_iff hle).mpr hreached)]
    rfl
  | refused hbound hcheck =>
    obtain ⟨m, hcheck⟩ := hcheck
    refine ⟨m, fun n hn k => ?_⟩
    rw [roundsFrom_eq_bind hle hbound, Process.bind_of_ok (holds_of_le hn hcheck)]
    simp [Process.pure_apply, LoopEnd.report, Run.after]
  | conditionFailed hbound hcheck =>
    obtain ⟨m, hcheck⟩ := hcheck
    refine ⟨m, fun n hn k => ?_⟩
    rw [roundsFrom_eq_bind hle hbound, Process.bind_of_error (holds_of_le hn hcheck)]
    rfl
  | exited hbound hcheck hwork =>
    obtain ⟨a, hcheck⟩ := hcheck
    obtain ⟨b, hwork⟩ := hwork
    refine ⟨max a b, fun n hn k => ?_⟩
    rw [roundsFrom_of_held hle hbound (holds_of_le (by omega) hcheck),
      Process.bind_of_ok (Component.evaluate_of_le (by omega) hwork)]
    simp [Process.pure_apply, LoopEnd.report, Run.after]
  | bodyFailed hbound hcheck hwork =>
    obtain ⟨a, hcheck⟩ := hcheck
    obtain ⟨b, hwork⟩ := hwork
    refine ⟨max a b, fun n hn k => ?_⟩
    rw [roundsFrom_of_held hle hbound (holds_of_le (by omega) hcheck),
      Process.bind_of_error (Component.evaluate_of_le (by omega) hwork)]
    rfl

/-- A loop halts just where it stops after some completed rounds. -/
theorem loop_halts_iff {z : Run World ExecutionError Outcome} :
    (Component.loop name body condition bound).Halts e register w z ↔
      ∃ j r v events stop, RoundsDone name body condition bound e register w j r v events ∧
        LoopStops name body condition bound e j r v stop ∧ z = stop.after events := by
  constructor
  · rintro ⟨n, hrun⟩
    rw [run_loop_apply] at hrun
    obtain ⟨finish, hrounds, rfl⟩ := Option.map_eq_some_iff.mp hrun
    obtain ⟨j, r, v, events, stop, hdone, hstops, hz⟩ := loopStops_of_roundsFrom .start hrounds
    exact ⟨j, r, v, events, stop, hdone, hstops, hz⟩
  · rintro ⟨j, r, v, events, stop, hdone, hstops, rfl⟩
    obtain ⟨a, hrounds⟩ := hdone.rounds
    obtain ⟨b, hstop⟩ := hstops.rounds hdone.le_bound
    obtain ⟨k, hk⟩ : ∃ k, max (max a b) (j + 1) = (k + 1) + j :=
      ⟨max (max a b) (j + 1) - (j + 1), by omega⟩
    refine ⟨max (max a b) (j + 1), ?_⟩
    have hall := hrounds (max (max a b) (j + 1)) (by omega) (k + 1)
    have hlast := hstop (max (max a b) (j + 1)) (by omega) k
    rw [← hk] at hall
    rw [run_loop_apply]
    change (roundsFrom _ name body condition bound e _ 0 register w).map _ = _
    rw [hall, Option.map_map]
    obtain ⟨finish, hfinish, rfl⟩ := Option.map_eq_some_iff.mp hlast
    rw [hfinish]
    exact congrArg some (LoopEnd.report_after events finish)

end

/-! ## Unrolled loops -/

section

variable {body : Component} {e : Evaluator}

/-- With fast exit, what follows a step is reached only from its register. -/
theorem sameCause_afterStep (hfast : e.fastExit = true) (name : String) (index : Nat)
    (component : String) (register : Record) (step : Course Outcome)
    (next : Record → Course Outcome) :
    SameCause (afterStep e name index component register step next)
      (step >>= fun outcome =>
        match outcome with
        | .next r => next r
        | .exitLoop r => pure (.exitLoop r)) := by
  intro w
  unfold Process.endingUpTo
  rw [ending_afterStep]
  rcases h : step.ending w with _ | ⟨error | (r | r), w'⟩
  · rw [Process.ending_bind_of_none h]
  · rw [Process.ending_bind_of_error h]
    simp only [hfast, if_true]
    rfl
  · rw [Process.ending_bind_of_ok h]
  · rw [Process.ending_bind_of_ok h]
    rfl

/-- A body that ignores names does the same in an evaluator of its own. -/
theorem sameCause_evaluate
    (hbody : body.Every Component.IgnoresNames Predicate.IgnoresNames) (n : Nat) (name : String)
    (register : Record) :
    SameCause (body.evaluate n (e.child name) register) (body.run n e register) :=
  (SameCause.within_self _ _).trans
    (run_alike rfl (e.unnamed_child name) hbody hbody n register).sameCause

/-- A loop without condition does what is left of its bound, as so many steps do. -/
theorem sameCause_unrolled (hfast : e.fastExit = true)
    (hbody : body.Every Component.IgnoresNames Predicate.IgnoresNames) (n : Nat)
    (name schema : String) {k m done left : Nat} (hk : k = done + left) (hm : left ≤ m)
    (index : Nat) (register : Record) :
    SameCause
      (runRounds (body.evaluate n (e.child name)) (holds n none e) (some k) m done register >>=
        fun finish => pure (.next finish.register))
      (runSteps n schema (List.replicate left body) e index register >>=
        fun outcome => pure (Outcome.next outcome.register)) := by
  induction left generalizing m done index register with
  | zero =>
    have hreached : (some k).any (· ≤ done) = true := by
      simp only [Option.any_some, decide_eq_true_eq]
      omega
    unfold runRounds
    rw [if_pos hreached, List.replicate_zero, runSteps, Process.pure_bind, Process.pure_bind]
    exact AlikeUpTo.refl _
  | succ left ih =>
    obtain ⟨m, rfl⟩ : ∃ m', m = m' + 1 := ⟨m - 1, by omega⟩
    have hbelow : ¬ (some k).any (· ≤ done) = true := by
      simp only [Option.any_some, decide_eq_true_eq]
      omega
    rw [runRounds, if_neg hbelow, holds, Process.pure_bind, Bool.not_true,
      if_neg Bool.false_ne_true, Process.bind_assoc, List.replicate_succ, runSteps_cons]
    refine AlikeUpTo.trans ?_ (AlikeUpTo.bind
      (sameCause_afterStep hfast schema index body.name register _ _) fun _ =>
        AlikeUpTo.refl _).symm
    rw [Process.bind_assoc]
    refine (sameCause_evaluate hbody n name register).bind fun outcome => ?_
    cases outcome with
    | next r => exact ih (by omega) (by omega) (index + 1) r
    | exitLoop r =>
      dsimp only
      rw [Process.pure_bind, Process.pure_bind]
      exact AlikeUpTo.refl _

/-- A loop with a bound and no condition does what so many steps do. -/
theorem sameCause_loop (hfast : e.fastExit = true)
    (hbody : body.Every Component.IgnoresNames Predicate.IgnoresNames) (name schema : String)
    {n k : Nat} (hk : k ≤ n) (register : Record) :
    SameCause ((Component.loop name body none (some k)).run n e register)
      ((Component.schema schema (List.replicate k body)).run n e register >>=
        fun outcome => pure (Outcome.next outcome.register)) := by
  refine AlikeUpTo.trans ?_
    (sameCause_unrolled hfast hbody n name schema (Nat.zero_add k).symm hk 0 register)
  rw [run_loop]
  exact (AlikeUpTo.refl _).bind fun finish => AlikeUpTo.of_ending fun _ => rfl

/-- With enough rounds, both run on, both end with one register, or both fail for one cause. -/
theorem loop_cases (hfast : e.fastExit = true)
    (hbody : body.Every Component.IgnoresNames Predicate.IgnoresNames) (name schema : String)
    {n k : Nat} (hk : k ≤ n) (register : Record) (w : World) :
    let loop := (Component.loop name body none (some k)).run n e register
    let steps := (Component.schema schema (List.replicate k body)).run n e register
    (loop.ending w = none ∧ steps.ending w = none) ∨
    (∃ outcome w', loop.ending w = some (.ok (.next outcome.register), w') ∧
      steps.ending w = some (.ok outcome, w')) ∨
    ∃ error error' w', loop.ending w = some (.error error, w') ∧
      steps.ending w = some (.error error', w') ∧ error.rootCause = error'.rootCause := by
  intro loop steps
  have halike := (sameCause_loop hfast hbody name schema hk register).cases w
  rcases hsteps : steps.ending w with _ | ⟨error' | outcome, w'⟩
  · rw [Process.ending_bind_of_none hsteps] at halike
    obtain ⟨hnone, _⟩ | ⟨_, _, _, h⟩ | ⟨_, _, _, _, h, _⟩ := halike
    · exact .inl ⟨hnone, rfl⟩
    · cases h
    · cases h
  · rw [Process.ending_bind_of_error hsteps] at halike
    obtain ⟨_, h⟩ | ⟨_, _, _, h⟩ | ⟨error, _, _, herror, h, hsame⟩ := halike
    · cases h
    · cases h
    · cases h
      exact .inr (.inr ⟨error, error', w', herror, rfl, hsame⟩)
  · rw [Process.ending_bind_of_ok hsteps] at halike
    obtain ⟨_, h⟩ | ⟨_, _, hok, h⟩ | ⟨_, _, _, _, h, _⟩ := halike
    · cases h
    · cases h
      exact .inr (.inl ⟨outcome, w', hok, rfl⟩)
    · cases h

end

/-! ## The result -/

/-- A loop is a bounded iteration.  It halts just where it stops after some completed rounds:
at its bound, without asking the condition; where the condition does not hold, with the
register that was asked about; where the body gives the signal, with the register of the
signal; or where the condition or the body fails, with that error.

With a bound and no condition, in an evaluator with fast exit, it unrolls.  It ends as the
schema of so many copies of its body ends, whose signal counts as an outcome: with the same
register, or for the same cause, and in the same world. -/
theorem loop_iterates_and_unrolls :
    (∀ name body condition bound e register w z,
      (Component.loop name body condition bound).Halts e register w z ↔
        ∃ j r v events stop, RoundsDone name body condition bound e register w j r v events ∧
          LoopStops name body condition bound e j r v stop ∧ z = stop.after events) ∧
    ∀ (name schema : String) (body : Component) (k : Nat) (e : Evaluator) (register : Record)
      (w w' : World), e.fastExit = true →
      body.Every Component.IgnoresNames Predicate.IgnoresNames →
      let loop := Component.loop name body none (some k)
      let steps := Component.schema schema (List.replicate k body)
      (∀ outcome, loop.Ends e register w (.ok outcome) w' ↔
        ∃ outcome', steps.Ends e register w (.ok outcome') w' ∧
          outcome = .next outcome'.register) ∧
      (∀ error, loop.Ends e register w (.error error) w' →
        ∃ error', steps.Ends e register w (.error error') w' ∧
          error.rootCause = error'.rootCause) ∧
      ∀ error', steps.Ends e register w (.error error') w' →
        ∃ error, loop.Ends e register w (.error error) w' ∧
          error.rootCause = error'.rootCause := by
  refine ⟨fun _ _ _ _ _ _ _ _ => loop_halts_iff, ?_⟩
  intro name schema body k e register w w' hfast hbody loop steps
  have hcases {n : Nat} (hk : k ≤ n) := loop_cases hfast hbody name schema hk register w
  refine ⟨fun outcome => ⟨fun hends => ?_, ?_⟩, fun error hends => ?_, fun error' hends => ?_⟩
  · obtain ⟨n, hk, hloop⟩ := Component.Ends.ending_of_ge hends k
    obtain ⟨h, _⟩ | ⟨outcome', _, h, hsteps⟩ | ⟨_, _, _, h, _⟩ := hcases hk <;>
      cases h.symm.trans hloop
    exact ⟨outcome', Component.ends_iff.mpr ⟨n, hsteps⟩, rfl⟩
  · rintro ⟨outcome', hends, rfl⟩
    obtain ⟨n, hk, hsteps⟩ := Component.Ends.ending_of_ge hends k
    obtain ⟨_, h⟩ | ⟨_, _, hloop, h⟩ | ⟨_, _, _, _, h, _⟩ := hcases hk <;>
      cases h.symm.trans hsteps
    exact Component.ends_iff.mpr ⟨n, hloop⟩
  · obtain ⟨n, hk, hloop⟩ := Component.Ends.ending_of_ge hends k
    obtain ⟨h, _⟩ | ⟨_, _, h, _⟩ | ⟨_, error', _, h, hsteps, hsame⟩ := hcases hk <;>
      cases h.symm.trans hloop
    exact ⟨error', Component.ends_iff.mpr ⟨n, hsteps⟩, hsame⟩
  · obtain ⟨n, hk, hsteps⟩ := Component.Ends.ending_of_ge hends k
    obtain ⟨_, h⟩ | ⟨_, _, _, h⟩ | ⟨error, _, _, hloop, h, hsame⟩ := hcases hk <;>
      cases h.symm.trans hsteps
    exact ⟨error, Component.ends_iff.mpr ⟨n, hloop⟩, hsame⟩

/-- Counts, and gives the signal once it has counted to two. -/
def countToTwo : Component :=
  .schema "Body"
    [.ofAction (Stock.add "f" 1 true),
     .switch "Switch" [.mk "Enough" (some (Stock.above "f" 1)) (.exit "Break") true]]

/-- A register with a count. -/
def countOf (n : Int) : Record := (∅ : Record).insert "f" (.int n)

/-- The signal comes in the second of three rounds. -/
theorem countToTwo_iterates_and_unrolls :
    (Evaluator.make "Root" .off true 0).fastExit = true ∧
    countToTwo.Every Component.IgnoresNames Predicate.IgnoresNames ∧
    (∃ j r v events stop,
      RoundsDone "Loop" countToTwo none (some 3) (.make "Root" .off true 0) ∅ World.empty j r v
        events ∧
      LoopStops "Loop" countToTwo none (some 3) (.make "Root" .off true 0) j r v stop ∧
      ⟨.ok (.next (countOf 2)), [], World.empty⟩ = stop.after events) ∧
    (Component.loop "Loop" countToTwo none (some 3)).Ends (.make "Root" .off true 0) ∅ World.empty
      (.ok (.next (countOf 2))) World.empty ∧
    ∃ outcome,
      (Component.schema "Steps" (List.replicate 3 countToTwo)).Ends (.make "Root" .off true 0) ∅
        World.empty (.ok outcome) World.empty ∧
      Outcome.next (countOf 2) = .next outcome.register := by
  obtain ⟨hiterates, hunrolls⟩ := loop_iterates_and_unrolls
  have hnames : countToTwo.Every Component.IgnoresNames Predicate.IgnoresNames :=
    ⟨trivial, trivial, ⟨trivial, ⟨fun _ _ _ _ => EndAlike.refl _, trivial⟩, trivial⟩, trivial⟩
  have hhalts : (Component.loop "Loop" countToTwo none (some 3)).Halts (.make "Root" .off true 0) ∅
      World.empty ⟨.ok (.next (countOf 2)), [], World.empty⟩ := ⟨3, rfl⟩
  have hsteps := hunrolls "Loop" "Steps" countToTwo 3 (.make "Root" .off true 0) ∅ World.empty
    World.empty rfl hnames
  exact ⟨rfl, hnames, (hiterates _ _ _ _ _ _ _ _).mp hhalts, ⟨_, hhalts⟩,
    (hsteps.1 _).mp ⟨_, hhalts⟩⟩

/-- A filter that keeps its elements in the root evaluator only. -/
def rootFilter : Component := askingFilter fun e => pure (e.name = "Root")

/-- Unrolling needs tests that do not look at the name of their evaluator: a loop runs its body
in a child evaluator, and a schema runs its steps in its own. -/
theorem unrolling_needs_tests :
    ¬ ∀ (name schema : String) (body : Component) (k : Nat) (e : Evaluator) (register : Record)
      (w w' : World) (outcome : Outcome), e.fastExit = true →
      body.Every Component.IgnoresNames (fun _ => True) →
      (Component.loop name body none (some k)).Ends e register w (.ok outcome) w' →
      ∃ outcome', (Component.schema schema (List.replicate k body)).Ends e register w
        (.ok outcome') w' ∧ outcome = .next outcome'.register := by
  intro h
  have hdropped : (Component.loop "Loop" rootFilter none (some 1)).Ends
      (.make "Root" .off true 0) (listOf [∅]) World.empty (.ok (.next (listOf []))) World.empty :=
    ⟨_, 1, rfl⟩
  have hkept : (Component.schema "Steps" (List.replicate 1 rootFilter)).Ends
      (.make "Root" .off true 0) (listOf [∅]) World.empty (.ok (.next (listOf [∅]))) World.empty :=
    ⟨_, 1, rfl⟩
  obtain ⟨outcome, hends, houtcome⟩ :=
    h _ "Steps" rootFilter _ _ _ _ _ _ rfl ⟨trivial, trivial⟩ hdropped
  cases Except.ok.inj (hends.unique hkept).1
  exact listOf_one_ne_none (Outcome.next.inj houtcome).symm

end Pipeline
