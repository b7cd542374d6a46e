import Pipeline.Proofs.Constructs

/-!
# Recorded runs

A construct does not look at the state that its parts act on.  `Process.rounds`,
`Process.steps`, `Process.branches` and `Process.each` are the rounds of a loop, the steps of a
schema, the branches of a switch and the elements of a list over parts that act on any state;
over worlds they are what the interpreter runs (`runRounds_eq_rounds` and its siblings).  Over a
state with a record beside it, and parts that note their runs there, they show which calls the
construct makes.

Forgetting the record gives the run back (`Process.Forgets`).
-/

namespace Pipeline

variable {σ ε κ α β : Type}

/-- The run without the record beside its state. -/
def Run.forget (z : Run (σ × κ) ε α) : Run σ ε α := ⟨z.result, z.events, z.state.1⟩

namespace Process

/-- The process with a record beside its state, in which each run of it is noted. -/
def noting (note : σ → Run σ ε α → κ → κ) (x : Process σ ε α) : Process (σ × κ) ε α :=
  fun s => (x s.1).map fun z => ⟨z.result, z.events, (z.state, note s.1 z s.2)⟩

/-- A run is noted with the state before it, whatever it ended with. -/
theorem noting_of_some {note : σ → Run σ ε α → κ → κ} {x : Process σ ε α} {s s' : σ}
    {result : Except ε α} {events : List Event} (h : x s = some ⟨result, events, s'⟩) (k : κ) :
    x.noting note (s, k) = some ⟨result, events, (s', note s ⟨result, events, s'⟩ k)⟩ := by
  rw [noting, h]
  rfl

/-! ## Constructs over any state -/

/-- The rounds of a loop. -/
def rounds (body : Record → Process σ ExecutionError Outcome)
    (condition : Record → Process σ ExecutionError Bool) (bound : Option Nat) :
    (rounds : Nat) → (done : Nat) → Record → Process σ ExecutionError LoopEnd
  | n, done, register => do
    if bound.any (· ≤ done) then pure ⟨register, done, false⟩
    else if !(← condition register) then pure ⟨register, done, false⟩
    else
      match n with
      | 0 => endless
      | n + 1 =>
        match ← body register with
        | .next register => rounds body condition bound n (done + 1) register
        | .exitLoop register => pure ⟨register, done, true⟩

/-- The steps of a schema from an index on, given how a step is called. -/
def steps (call : Component → Record → Process σ ExecutionError Outcome) (name : String)
    (e : Evaluator) : List Component → (index : Nat) → Record → Process σ ExecutionError Outcome
  | [], _, register => pure (.next register)
  | step :: rest, index, register => do
    match ← (call step register).attempt with
    | .ok (.next register) =>
      emit (e.logger.log (.stepCompleted name index step.name))
      steps call name e rest (index + 1) register
    | .ok (.exitLoop register) => pure (.exitLoop register)
    | .error error =>
      emit (e.logger.log (.stepFailed name index step.name error))
      if e.fastExit then throw (.schemaFailed name index step.name error)
      else
        emit (e.logger.log (.stepSkipped name index))
        steps call name e rest (index + 1) register

section

variable {call : Component → Record → Process σ ExecutionError Outcome} {name : String}
variable {e : Evaluator} {step : Component} {rest : List Component} {index : Nat}
variable {register r : Record} {s s' : σ} {events : List Event}

/-- A step that gives a register is completed, and the others go on from it. -/
theorem steps_of_next (h : call step register s = some ⟨.ok (.next r), events, s'⟩) :
    steps call name e (step :: rest) index register s =
      (steps call name e rest (index + 1) r s').map
        (·.after (events ++ e.logger.log (.stepCompleted name index step.name))) := by
  rw [steps, bind_of_ok (attempt_of_some h)]
  dsimp only
  rw [bind_of_ok (emit_apply _ _), Option.map_map]
  simp only [Function.comp_def, Run.after_after]

/-- A step that gives the signal ends the steps, and is not completed. -/
theorem steps_of_exitLoop (h : call step register s = some ⟨.ok (.exitLoop r), events, s'⟩) :
    steps call name e (step :: rest) index register s =
      some ⟨.ok (.exitLoop r), events, s'⟩ := by
  rw [steps, bind_of_ok (attempt_of_some h)]
  simp [pure_apply, Run.after]

/-- Without fast exit the others go on from the register before the failed step. -/
theorem steps_of_error {error : ExecutionError} (hpolicy : e.fastExit = false)
    (h : call step register s = some ⟨.error error, events, s'⟩) :
    steps call name e (step :: rest) index register s =
      (steps call name e rest (index + 1) register s').map
        (·.after (events ++ e.logger.log (.stepFailed name index step.name error) ++
          e.logger.log (.stepSkipped name index))) := by
  rw [steps, bind_of_ok (attempt_of_some h)]
  dsimp only
  rw [bind_of_ok (emit_apply _ _), hpolicy, if_neg Bool.false_ne_true,
    bind_of_ok (emit_apply _ _), Option.map_map, Option.map_map]
  simp only [Function.comp_def, Run.after_after]

/-- Under fast exit a failed step ends the steps, with the layer of the schema. -/
theorem steps_of_fatal {error : ExecutionError} (hpolicy : e.fastExit = true)
    (h : call step register s = some ⟨.error error, events, s'⟩) :
    steps call name e (step :: rest) index register s =
      some ⟨.error (.schemaFailed name index step.name error),
        events ++ e.logger.log (.stepFailed name index step.name error), s'⟩ := by
  rw [steps, bind_of_ok (attempt_of_some h)]
  dsimp only
  rw [bind_of_ok (emit_apply _ _), hpolicy, if_pos rfl]
  simp [throw_apply, Run.after]

end

/-- The branches of a switch from an index on, given how a register is offered to one. -/
def branches (offer : Branch → Record → Process σ ExecutionError BranchOutcome) (name : String)
    (e : Evaluator) : List Branch → (index : Nat) → Record → Process σ ExecutionError Outcome
  | [], _, register => pure (.next register)
  | branch :: rest, index, register => do
    match ← offer branch register with
    | .skipped register => branches offer name e rest (index + 1) register
    | .taken (.exitLoop register) => pure (.exitLoop register)
    | .taken (.next register) =>
      emit (e.logger.log (.branchTaken name branch.name index))
      if branch.exits then pure (.next register)
      else branches offer name e rest (index + 1) register

/-- The elements of a list, given how the body runs on one. -/
def each (body : Record → Process σ ExecutionError Outcome) :
    List Value → Process σ ExecutionError (Option (List Value))
  | [] => pure (some [])
  | item :: rest => do
    let record ← ofExcept item.expectRecord
    match ← body record with
    | .exitLoop _ => pure none
    | .next result =>
      match ← each body rest with
      | none => pure none
      | some results => pure (some (.mapping result :: results))

section

variable {body : Record → Process σ ExecutionError Outcome} {item : Value} {element r : Record}
variable {rest : List Value} {s s' : σ} {events : List Event}

theorem each_mapping (body : Record → Process σ ExecutionError Outcome) (element : Record)
    (rest : List Value) :
    each body (.mapping element :: rest) = (do
      match ← body element with
      | .exitLoop _ => pure none
      | .next result =>
        match ← each body rest with
        | none => pure none
        | some results => pure (some (.mapping result :: results))) :=
  pure_bind element _

/-- Past an element for which the body gives a register, the others are run. -/
theorem each_of_next (h : body element s = some ⟨.ok (.next r), events, s'⟩) :
    each body (.mapping element :: rest) s =
      (each body rest s').map fun z =>
        ⟨z.result.map (Option.map (.mapping r :: ·)), events ++ z.events, z.state⟩ := by
  rw [each_mapping, bind_of_ok h]
  dsimp only
  rcases hrest : each body rest s' with _ | ⟨error | (_ | results), later, v⟩
  · rw [bind_of_none hrest]
    rfl
  · rw [bind_of_error hrest]
    rfl
  · rw [bind_of_ok hrest]
    simp [pure_apply, Run.after, Except.map]
  · rw [bind_of_ok hrest]
    simp [pure_apply, Run.after, Except.map]

/-- The signal ends the elements without a list. -/
theorem each_of_exitLoop (h : body element s = some ⟨.ok (.exitLoop r), events, s'⟩) :
    each body (.mapping element :: rest) s = some ⟨.ok none, events, s'⟩ := by
  rw [each_mapping, bind_of_ok h]
  simp [pure_apply, Run.after]

/-- A failed element ends the others, with its own error. -/
theorem each_of_error {error : ExecutionError}
    (h : body element s = some ⟨.error error, events, s'⟩) :
    each body (.mapping element :: rest) s = some ⟨.error error, events, s'⟩ := by
  rw [each_mapping, bind_of_error h]

theorem each_of_none (h : body element s = none) :
    each body (.mapping element :: rest) s = none := by
  rw [each_mapping, bind_of_none h]

/-- The body is not run on an element that is no mapping. -/
theorem each_of_notMapping {error : ExecutionError} (h : item.expectRecord = .error error) :
    each body (item :: rest) s = some ⟨.error error, [], s⟩ := by
  rw [each, h]
  rfl

end

end Process

/-- Over worlds, the rounds are those of the interpreter. -/
theorem runRounds_eq_rounds (body : Record → Course Outcome) (condition : Record → Course Bool)
    (bound : Option Nat) (n done : Nat) (register : Record) :
    runRounds body condition bound n done register =
      Process.rounds body condition bound n done register := by
  induction n generalizing done register with
  | zero => rfl
  | succ n ih =>
    unfold runRounds Process.rounds
    split
    · rfl
    · refine congrArg (condition register >>= ·) (funext fun holds => ?_)
      split
      · rfl
      · refine congrArg (body register >>= ·) (funext fun outcome => ?_)
        cases outcome with
        | next r => exact ih (done + 1) r
        | exitLoop r => rfl

/-- So are the steps, each called with its own tree. -/
theorem runSteps_eq_steps (n : Nat) (name : String) (program : List Component) (e : Evaluator)
    (index : Nat) (register : Record) :
    runSteps n name program e index register =
      Process.steps (fun step r => step.run n e r) name e program index register := by
  induction program generalizing index register with
  | nil => rfl
  | cons step rest ih =>
    rw [runSteps_cons]
    exact congrArg (afterStep e name index step.name register (step.run n e register))
      (funext fun r => ih (index + 1) r)

/-- So are the branches, each offered the register in its own tree. -/
theorem runBranches_eq_branches (n : Nat) (name : String) (branches : List Branch)
    (e : Evaluator) (index : Nat) (register : Record) :
    runBranches n name branches e index register =
      Process.branches (fun branch r => branch.offer n e r) name e branches index register := by
  induction branches generalizing index register with
  | nil => rfl
  | cons branch rest ih =>
    refine congrArg (branch.offer n e register >>= ·) (funext fun outcome => ?_)
    obtain (r | r) | r := outcome
    · refine congrArg (Process.emit _ >>= ·) (funext fun _ => ?_)
      split
      · rfl
      · exact ih (index + 1) r
    · rfl
    · exact ih (index + 1) r

/-- So are the elements. -/
theorem runEach_eq_each (body : Record → Course Outcome) (items : List Value) :
    runEach body items = Process.each body items := by
  induction items with
  | nil => rfl
  | cons item rest ih =>
    refine congrArg (Process.ofExcept item.expectRecord >>= ·) (funext fun record => ?_)
    refine congrArg (body record >>= ·) (funext fun outcome => ?_)
    cases outcome with
    | exitLoop r => rfl
    | next result => exact congrArg (· >>= _) ih

/-! ## Forgetting the record -/

namespace Process

/-- Without its record, the first process is the second. -/
def Forgets (x : Process (σ × κ) ε α) (y : Process σ ε α) : Prop :=
  ∀ s k, (x (s, k)).map Run.forget = y s

namespace Forgets

variable {x : Process (σ × κ) ε α} {y : Process σ ε α}

/-- A noted process is the process. -/
theorem noting (note : σ → Run σ ε α → κ → κ) (y : Process σ ε α) :
    Forgets (y.noting note) y := by
  intro s k
  cases h : y s with
  | none => simp [Process.noting, h]
  | some z => simp [Process.noting, h, Run.forget]

theorem pure (a : α) :
    Forgets (Pure.pure a : Process (σ × κ) ε α) (Pure.pure a : Process σ ε α) :=
  fun _ _ => rfl

theorem endless : Forgets (Process.endless : Process (σ × κ) ε α) Process.endless :=
  fun _ _ => rfl

/-- Parts that forget their record make a whole that does. -/
theorem bind {f : α → Process (σ × κ) ε β} {g : α → Process σ ε β} (hx : Forgets x y)
    (hf : ∀ a, Forgets (f a) (g a)) : Forgets (x >>= f) (y >>= g) := by
  intro s k
  have hs := hx s k
  cases hrun : x (s, k) with
  | none =>
    rw [hrun] at hs
    rw [bind_of_none hrun, bind_of_none hs.symm]
    rfl
  | some z =>
    rw [hrun] at hs
    obtain ⟨error | a, events, s', k'⟩ := z
    · rw [bind_of_error hrun, bind_of_error hs.symm]
      rfl
    · rw [bind_of_ok hrun, bind_of_ok hs.symm, ← hf a s' k']
      cases f a (s', k') <;> rfl

theorem throw (error : ε) :
    Forgets (MonadExcept.throw error : Process (σ × κ) ε α)
      (MonadExcept.throw error : Process σ ε α) :=
  fun _ _ => rfl

theorem emit (events : List Event) :
    Forgets (Process.emit events : Process (σ × κ) ε Unit) (Process.emit events) :=
  fun _ _ => rfl

theorem attempt (hx : Forgets x y) : Forgets x.attempt y.attempt := by
  intro s k
  rw [Process.attempt, Process.attempt, ← hx s k]
  cases x (s, k) <;> rfl

/-- The rounds of a loop, given that its body and its condition forget their record. -/
theorem rounds {body : Record → Process (σ × κ) ExecutionError Outcome}
    {body' : Record → Process σ ExecutionError Outcome}
    {condition : Record → Process (σ × κ) ExecutionError Bool}
    {condition' : Record → Process σ ExecutionError Bool} (bound : Option Nat)
    (hbody : ∀ r, Forgets (body r) (body' r))
    (hcondition : ∀ r, Forgets (condition r) (condition' r)) (n done : Nat) (register : Record) :
    Forgets (Process.rounds body condition bound n done register)
      (Process.rounds body' condition' bound n done register) := by
  induction n generalizing done register with
  | zero =>
    unfold Process.rounds
    split
    · exact pure _
    · refine bind (hcondition register) fun holds => ?_
      split
      · exact pure _
      · exact endless
  | succ n ih =>
    unfold Process.rounds
    split
    · exact pure _
    · refine bind (hcondition register) fun holds => ?_
      split
      · exact pure _
      · refine bind (hbody register) fun outcome => ?_
        cases outcome with
        | next r => exact ih (done + 1) r
        | exitLoop r => exact pure _

/-- The steps of a schema, given that each call forgets its record. -/
theorem steps {call : Component → Record → Process (σ × κ) ExecutionError Outcome}
    {call' : Component → Record → Process σ ExecutionError Outcome}
    (hcall : ∀ step r, Forgets (call step r) (call' step r)) (name : String) (e : Evaluator)
    (program : List Component) (index : Nat) (register : Record) :
    Forgets (Process.steps call name e program index register)
      (Process.steps call' name e program index register) := by
  induction program generalizing index register with
  | nil => exact pure _
  | cons step rest ih =>
    refine bind (hcall step register).attempt fun result => ?_
    obtain error | (r | r) := result
    · refine bind (emit _) fun _ => ?_
      split
      · exact throw _
      · exact bind (emit _) fun _ => ih (index + 1) register
    · exact bind (emit _) fun _ => ih (index + 1) r
    · exact pure _

/-- The branches of a switch, given that each offer forgets its record. -/
theorem branches {offer : Branch → Record → Process (σ × κ) ExecutionError BranchOutcome}
    {offer' : Branch → Record → Process σ ExecutionError BranchOutcome}
    (hoffer : ∀ branch r, Forgets (offer branch r) (offer' branch r)) (name : String)
    (e : Evaluator) (list : List Branch) (index : Nat) (register : Record) :
    Forgets (Process.branches offer name e list index register)
      (Process.branches offer' name e list index register) := by
  induction list generalizing index register with
  | nil => exact pure _
  | cons branch rest ih =>
    refine bind (hoffer branch register) fun outcome => ?_
    obtain (r | r) | r := outcome
    · refine bind (emit _) fun _ => ?_
      split
      · exact pure _
      · exact ih (index + 1) r
    · exact pure _
    · exact ih (index + 1) r

theorem ofExcept (y : Except ε α) :
    Forgets (Process.ofExcept y : Process (σ × κ) ε α) (Process.ofExcept y) :=
  fun _ _ => rfl

/-- The elements of a list, given that the body forgets its record. -/
theorem each {body : Record → Process (σ × κ) ExecutionError Outcome}
    {body' : Record → Process σ ExecutionError Outcome} (hbody : ∀ r, Forgets (body r) (body' r))
    (items : List Value) : Forgets (Process.each body items) (Process.each body' items) := by
  induction items with
  | nil => exact pure _
  | cons item rest ih =>
    refine bind (ofExcept _) fun record => bind (hbody record) fun outcome => ?_
    cases outcome with
    | exitLoop r => exact pure _
    | next result =>
      refine bind ih fun results => ?_
      cases results with
      | none => exact pure _
      | some results => exact pure _

end Forgets

end Process

end Pipeline
