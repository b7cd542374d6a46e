import Pipeline.Proofs.FailureContainment

/-!
# What a schema says of its steps

A schema emits events of its own between those of the calls of its steps.  When its logger lets
information pass, they tell how each call ended: a step is completed, or it failed and is skipped,
or it failed and ends the schema.  A step that ends the schema with the signal of a loop is not
told of (`step_events_replay`).

`ownSteps` is the run of the steps without what their calls emit, so that what it emits is the
schema's own.  `StepReport` says which events those are, one list for each call.  A step adds one
list in front (`StepReport.cons`), and what is said of a run is put together step by step
(`Replay`).
-/

namespace Pipeline

variable {σ ε α : Type}

/-! ## Messages that pass -/

/-- No message has the level that lets nothing pass. -/
theorem Message.level_ne_off (m : Message) : m.level ≠ .off := by
  cases m <;> nofun

/-- A logger that lets information pass lets the graver messages pass. -/
theorem Logger.log_of_info {l : Logger} {m : Message} (h : l.enabled .info = true)
    (hm : Level.info.rank ≤ m.level.rank) : l.log m = [⟨m.level, l.name, m⟩] := by
  have hlevel := m.level_ne_off
  have hpass : l.enabled m.level = true := by
    simp only [enabled, Bool.and_eq_true, decide_eq_true_eq] at h ⊢
    exact ⟨⟨hlevel, h.1.2⟩, Nat.le_trans h.2 hm⟩
  rw [log, logAt, if_pos hpass]

section

variable {l : Logger} {name component : String} {index : Nat} {error : ExecutionError}

theorem Logger.log_stepCompleted (h : l.enabled .info = true) :
    l.log (.stepCompleted name index component) =
      [⟨.info, l.name, .stepCompleted name index component⟩] :=
  log_of_info h (Nat.le_refl _)

theorem Logger.log_stepSkipped (h : l.enabled .info = true) :
    l.log (.stepSkipped name index) = [⟨.warn, l.name, .stepSkipped name index⟩] :=
  log_of_info h (Nat.le_add_right _ 1)

theorem Logger.log_stepFailed (h : l.enabled .info = true) :
    l.log (.stepFailed name index component error) =
      [⟨.error, l.name, .stepFailed name index component error⟩] :=
  log_of_info h (Nat.le_add_right _ 2)

end

/-! ## The events of the schema itself -/

/-- The process without its events. -/
def Process.silent (x : Process σ ε α) : Process σ ε α :=
  fun s => (x s).map fun z => { z with events := [] }

theorem Process.silent_of_some {x : Process σ ε α} {s s' : σ} {result : Except ε α}
    {events : List Event} (h : x s = some ⟨result, events, s'⟩) :
    x.silent s = some ⟨result, [], s'⟩ := by
  rw [silent, h]
  rfl

/-- The steps of a schema whose calls emit nothing. -/
def ownSteps (rounds : Nat) (name : String) (steps : List Component) (e : Evaluator) :
    (index : Nat) → Record → Course Outcome :=
  Process.steps (fun step r => (step.run rounds e r).silent) name e steps

/-- What a schema emits for a step after which it goes on. -/
inductive StepBlock (e : Evaluator) (name : String) (index : Nat) :
    StepCall → List Event → Prop
  | completed {call : StepCall} {r : Record} : call.run.result = .ok (.next r) →
      StepBlock e name index call
        [⟨.info, e.logger.name, .stepCompleted name index call.step.name⟩]
  | skipped {call : StepCall} {error : ExecutionError} : e.fastExit = false →
      call.run.result = .error error →
      StepBlock e name index call
        [⟨.error, e.logger.name, .stepFailed name index call.step.name error⟩,
         ⟨.warn, e.logger.name, .stepSkipped name index⟩]

/-- One block for each call, from an index on. -/
inductive StepBlocks (e : Evaluator) (name : String) :
    (index : Nat) → List StepCall → List (List Event) → Prop
  | nil {index : Nat} : StepBlocks e name index [] []
  | cons {index : Nat} {call : StepCall} {calls : List StepCall} {block : List Event}
      {blocks : List (List Event)} :
      StepBlock e name index call block → StepBlocks e name (index + 1) calls blocks →
        StepBlocks e name index (call :: calls) (block :: blocks)

/-- What a schema emits for each of its calls, by its result.  The step that ends it has no
block: a signal goes without an event, and a failure is not skipped. -/
inductive StepReport (e : Evaluator) (name : String) (index : Nat) (steps : List Component) :
    Except ExecutionError Outcome → List StepCall → List (List Event) → Prop
  | next {r : Record} {calls : List StepCall} {blocks : List (List Event)} :
      calls.map StepCall.step = steps → StepBlocks e name index calls blocks →
        StepReport e name index steps (.ok (.next r)) calls blocks
  | exitLoop {r : Record} {calls : List StepCall} {last : StepCall}
      {blocks : List (List Event)} :
      (calls ++ [last]).map StepCall.step <+: steps → last.run.result = .ok (.exitLoop r) →
        StepBlocks e name index calls blocks →
        StepReport e name index steps (.ok (.exitLoop r)) (calls ++ [last]) (blocks ++ [[]])
  | failed {error : ExecutionError} {calls : List StepCall} {last : StepCall}
      {blocks : List (List Event)} :
      (calls ++ [last]).map StepCall.step <+: steps → last.run.result = .error error →
        e.fastExit = true → StepBlocks e name index calls blocks →
        StepReport e name index steps
          (.error (.schemaFailed name (index + calls.length) last.step.name error))
          (calls ++ [last])
          (blocks ++ [[⟨.error, e.logger.name,
            .stepFailed name (index + calls.length) last.step.name error⟩]])

namespace StepReport

variable {e : Evaluator} {name : String} {index : Nat} {rest : List Component}
variable {block : List Event} {r : Record} {error : ExecutionError}
variable {result : Except ExecutionError Outcome} {calls : List StepCall}
variable {reports : List (List Event)}

/-- A signal ends the report. -/
theorem exit (call : StepCall) (hcall : call.run.result = .ok (.exitLoop r)) :
    StepReport e name index (call.step :: rest) (.ok (.exitLoop r)) [call] [[]] :=
  @exitLoop _ _ _ _ _ [] call [] ⟨rest, rfl⟩ hcall .nil

/-- So does a failure under fast exit. -/
theorem fail (call : StepCall) (hfast : e.fastExit = true)
    (hcall : call.run.result = .error error) :
    StepReport e name index (call.step :: rest)
      (.error (.schemaFailed name index call.step.name error)) [call]
      [[⟨.error, e.logger.name, .stepFailed name index call.step.name error⟩]] :=
  @failed _ _ _ _ error [] call [] ⟨rest, rfl⟩ hcall hfast .nil

/-- A step after which the schema goes on adds its block to the report of the others. -/
theorem cons (call : StepCall) (hblock : StepBlock e name index call block)
    (h : StepReport e name (index + 1) rest result calls reports) :
    StepReport e name index (call.step :: rest) result (call :: calls) (block :: reports) := by
  cases h with
  | next hsteps hblocks =>
    exact .next (congrArg (call.step :: ·) hsteps) (.cons hblock hblocks)
  | exitLoop hsteps hlast hblocks =>
    rw [← List.cons_append, ← List.cons_append]
    exact .exitLoop ((List.prefix_cons_inj _).mpr hsteps) hlast (.cons hblock hblocks)
  | @failed error calls _ _ hsteps hlast hfast hblocks =>
    have hindex : index + 1 + calls.length = index + (call :: calls).length := by
      rw [List.length_cons, Nat.add_assoc, Nat.add_comm 1]
    rw [hindex, ← List.cons_append, ← List.cons_append]
    exact .failed ((List.prefix_cons_inj _).mpr hsteps) hlast hfast (.cons hblock hblocks)

end StepReport

/-! ## Runs -/

/-- The calls of a run of steps and what the schema emits for each: the events of the run are
those of the calls, each with the schema's own behind it. -/
structure Replay (rounds : Nat) (name : String) (e : Evaluator) (steps : List Component)
    (index : Nat) (register : Record) (w : World) (z : Run World ExecutionError Outcome)
    (calls : List StepCall) (reports : List (List Event)) : Prop where
  recorded : ∀ earlier, recordedSteps rounds name steps e index register (w, earlier) =
    some ⟨z.result, z.events, (z.state, earlier ++ calls)⟩
  called : ∀ call ∈ calls, call.step.run rounds e call.register call.before = some call.run
  events : z.events =
    (List.zipWith (fun call own => call.run.events ++ own) calls reports).flatten
  own : ownSteps rounds name steps e index register w =
    some ⟨z.result, reports.flatten, z.state⟩
  report : StepReport e name index steps z.result calls reports

namespace Replay

variable {rounds index : Nat} {name : String} {e : Evaluator} {step : Component}
variable {rest : List Component} {register r : Record} {w w' : World} {events : List Event}
variable {error : ExecutionError} {z : Run World ExecutionError Outcome}
variable {calls : List StepCall} {reports : List (List Event)}

theorem done : Replay rounds name e [] index register w ⟨.ok (.next register), [], w⟩ [] [] where
  recorded earlier := by
    rw [List.append_nil]
    rfl
  called _ hmem := nomatch hmem
  events := rfl
  own := rfl
  report := .next rfl .nil

/-- A step that gives the signal is called, and nothing is reported. -/
theorem exited (hstep : step.run rounds e register w = some ⟨.ok (.exitLoop r), events, w'⟩) :
    Replay rounds name e (step :: rest) index register w ⟨.ok (.exitLoop r), events, w'⟩
      [⟨step, register, w, ⟨.ok (.exitLoop r), events, w'⟩⟩] [[]] where
  recorded earlier := Process.steps_of_exitLoop (recordedCall_of_some hstep earlier)
  called := List.forall_mem_singleton.mpr hstep
  events := by simp
  own := Process.steps_of_exitLoop (Process.silent_of_some hstep)
  report := .exit ⟨step, register, w, _⟩ rfl

/-- Under fast exit a failed step is the last one called, and is reported. -/
theorem failed (hinfo : e.logger.enabled .info = true) (hfast : e.fastExit = true)
    (hstep : step.run rounds e register w = some ⟨.error error, events, w'⟩) :
    Replay rounds name e (step :: rest) index register w
      ⟨.error (.schemaFailed name index step.name error),
        events ++ e.logger.log (.stepFailed name index step.name error), w'⟩
      [⟨step, register, w, ⟨.error error, events, w'⟩⟩]
      [[⟨.error, e.logger.name, .stepFailed name index step.name error⟩]] where
  recorded earlier := Process.steps_of_fatal hfast (recordedCall_of_some hstep earlier)
  called := List.forall_mem_singleton.mpr hstep
  events := by
    rw [Logger.log_stepFailed hinfo]
    simp
  own := by
    have hown := Process.silent_of_some hstep
    rw [ownSteps, Process.steps_of_fatal hfast hown, Logger.log_stepFailed hinfo]
    rfl
  report := .fail ⟨step, register, w, _⟩ hfast rfl

/-- A completed step is reported in front of what the others report. -/
theorem completed (hinfo : e.logger.enabled .info = true)
    (hstep : step.run rounds e register w = some ⟨.ok (.next r), events, w'⟩)
    (h : Replay rounds name e rest (index + 1) r w' z calls reports) :
    Replay rounds name e (step :: rest) index register w
      (z.after (events ++ e.logger.log (.stepCompleted name index step.name)))
      (⟨step, register, w, ⟨.ok (.next r), events, w'⟩⟩ :: calls)
      ([⟨.info, e.logger.name, .stepCompleted name index step.name⟩] :: reports) where
  recorded earlier := by
    rw [recordedSteps, Process.steps_of_next (recordedCall_of_some hstep earlier),
      ← recordedSteps, h.recorded, ← List.append_cons]
    rfl
  called := List.forall_mem_cons.mpr ⟨hstep, h.called⟩
  events := by
    rw [Run.after, h.events, Logger.log_stepCompleted hinfo]
    rfl
  own := by
    have hown := Process.silent_of_some hstep
    rw [ownSteps, Process.steps_of_next hown, ← ownSteps, h.own, Logger.log_stepCompleted hinfo]
    rfl
  report := .cons ⟨step, register, w, _⟩ (.completed rfl) h.report

/-- So is a skipped one, twice. -/
theorem skipped (hinfo : e.logger.enabled .info = true) (hfast : e.fastExit = false)
    (hstep : step.run rounds e register w = some ⟨.error error, events, w'⟩)
    (h : Replay rounds name e rest (index + 1) register w' z calls reports) :
    Replay rounds name e (step :: rest) index register w
      (z.after (events ++ e.logger.log (.stepFailed name index step.name error) ++
        e.logger.log (.stepSkipped name index)))
      (⟨step, register, w, ⟨.error error, events, w'⟩⟩ :: calls)
      ([⟨.error, e.logger.name, .stepFailed name index step.name error⟩,
        ⟨.warn, e.logger.name, .stepSkipped name index⟩] :: reports) where
  recorded earlier := by
    rw [recordedSteps, Process.steps_of_error hfast (recordedCall_of_some hstep earlier),
      ← recordedSteps, h.recorded, ← List.append_cons]
    rfl
  called := List.forall_mem_cons.mpr ⟨hstep, h.called⟩
  events := by
    rw [Run.after, h.events, Logger.log_stepFailed hinfo, Logger.log_stepSkipped hinfo]
    simp
  own := by
    have hown := Process.silent_of_some hstep
    rw [ownSteps, Process.steps_of_error hfast hown, ← ownSteps, h.own,
      Logger.log_stepFailed hinfo, Logger.log_stepSkipped hinfo]
    rfl
  report := .cons ⟨step, register, w, _⟩ (.skipped hfast rfl) h.report

end Replay

/-- Every run of steps is told in that way. -/
theorem replay_of_runSteps {rounds : Nat} {name : String} {steps : List Component} {e : Evaluator}
    {index : Nat} {register : Record} {w : World} {z : Run World ExecutionError Outcome}
    (hinfo : e.logger.enabled .info = true)
    (h : runSteps rounds name steps e index register w = some z) :
    ∃ calls reports, Replay rounds name e steps index register w z calls reports := by
  induction steps generalizing index register w z with
  | nil =>
    cases h
    exact ⟨[], [], .done⟩
  | cons step rest ih =>
    rw [runSteps_cons] at h
    cases afterStep_eq_some.mp h with
    | completed hstep hnext =>
      obtain ⟨_, _, hrest⟩ := ih hnext
      exact ⟨_, _, hrest.completed hinfo hstep⟩
    | exited hstep => exact ⟨_, _, .exited hstep⟩
    | failed hstep hfast => exact ⟨_, _, .failed hinfo hfast hstep⟩
    | skipped hstep hfast hnext =>
      obtain ⟨_, _, hrest⟩ := ih hnext
      exact ⟨_, _, hrest.skipped hinfo hfast hstep⟩

/-- When information passes its logger, a schema that halts emits events of its own that tell
what became of its steps.

The events of the run are those of the recorded calls, each with the schema's own behind it, and
those are what the run emits when its calls are silent.  For a register they are one block for each
step; for a signal, one block for each step before the one that gave it; for an error, one block
for each step before the one that failed, and the failure of that one. -/
theorem step_events_replay {rounds : Nat} {name : String} {steps : List Component}
    {e : Evaluator} {register : Record} {w : World} {z : Run World ExecutionError Outcome}
    (hinfo : e.logger.enabled .info = true)
    (hrun : (Component.schema name steps).run rounds e register w = some z) :
    ∃ calls reports,
      recordedSteps rounds name steps e 0 register (w, []) =
        some ⟨z.result, z.events, (z.state, calls)⟩ ∧
      (∀ call ∈ calls, call.step.run rounds e call.register call.before = some call.run) ∧
      z.events = (List.zipWith (fun call own => call.run.events ++ own) calls reports).flatten ∧
      ownSteps rounds name steps e 0 register w = some ⟨z.result, reports.flatten, z.state⟩ ∧
      StepReport e name 0 steps z.result calls reports := by
  obtain ⟨calls, reports, h⟩ := replay_of_runSteps hinfo hrun
  exact ⟨calls, reports, h.recorded [], h.called, h.events, h.own, h.report⟩

/-- A step that fails, a schema inside, the signal of a loop, and a step that is not reached. -/
def eventfulSteps : List Component :=
  [.action "Rename" (.root "output" .local) (.rename ⟨"a", "b"⟩),
   .schema "Inner" [.schema "Nothing" []],
   .exit "Break",
   .schema "Unreached" []]

/-- Its run under a logger that lets information pass, without fast exit. -/
def eventfulRun : Run World ExecutionError Outcome :=
  ⟨.ok (.exitLoop ∅),
    [⟨.error, "Root", .stepFailed "Outer" 0 "Rename" (.action "Rename" (.missingKey "a"))⟩,
     ⟨.warn, "Root", .stepSkipped "Outer" 0⟩,
     ⟨.info, "Root", .stepCompleted "Inner" 0 "Nothing"⟩,
     ⟨.info, "Root", .stepCompleted "Outer" 1 "Inner"⟩],
    World.empty⟩

theorem eventfulSteps_replayed :
    (Evaluator.make "Root" .info false 0).logger.enabled .info = true ∧
    (Component.schema "Outer" eventfulSteps).run 1 (.make "Root" .info false 0) ∅ World.empty =
      some eventfulRun ∧
    ∃ calls reports,
      calls.map StepCall.step = eventfulSteps.take 3 ∧
      reports.flatten =
        [⟨.error, "Root", .stepFailed "Outer" 0 "Rename" (.action "Rename" (.missingKey "a"))⟩,
         ⟨.warn, "Root", .stepSkipped "Outer" 0⟩,
         ⟨.info, "Root", .stepCompleted "Outer" 1 "Inner"⟩] ∧
      eventfulRun.events =
        (List.zipWith (fun call own => call.run.events ++ own) calls reports).flatten ∧
      StepReport (.make "Root" .info false 0) "Outer" 0 eventfulSteps eventfulRun.result calls
        reports := by
  have hinfo : (Evaluator.make "Root" .info false 0).logger.enabled .info = true := rfl
  have hrun : (Component.schema "Outer" eventfulSteps).run 1 (.make "Root" .info false 0) ∅
      World.empty = some eventfulRun := rfl
  obtain ⟨calls, reports, hrecorded, _, hevents, hown, hreport⟩ := step_events_replay hinfo hrun
  have hsteps : (recordedSteps 1 "Outer" eventfulSteps (.make "Root" .info false 0) 0 ∅
      (World.empty, [])).map (·.state.2.map StepCall.step) = some (eventfulSteps.take 3) := rfl
  have hsilent : (ownSteps 1 "Outer" eventfulSteps (.make "Root" .info false 0) 0 ∅
      World.empty).map Run.events = some [_, _, _] := rfl
  rw [hrecorded] at hsteps
  rw [hown] at hsilent
  exact ⟨hinfo, hrun, calls, reports, Option.some.inj hsteps, Option.some.inj hsilent, hevents,
    hreport⟩

end Pipeline
