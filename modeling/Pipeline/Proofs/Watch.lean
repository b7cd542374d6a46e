import Pipeline.Proofs.Constructs

/-!
# Watching a run

An event shows its level, the name of its logger and its message, but not whose logger
that was: a nested evaluator or a log step may have one of the same name.  A *watched*
run notes that too.  A *sighting* is an event with a mark that tells whether it went
through the logger of the evaluator the component runs in, or of a child of it.

`Component.watch` follows `Component.run` construct by construct, with that logger at
the lowest threshold.  What nested evaluators, log steps with a logger of their own,
memories and units emit goes past it.  `Watch.through` forgets the marks and keeps of
the marked events those that pass a threshold.
-/

namespace Pipeline

/-- An event, and whether it went through the watched logger. -/
structure Sighting where
  own : Bool
  event : Event
  deriving DecidableEq

/-- The sighting passes a threshold: it did not go through the watched logger, or its
level is not below the threshold. -/
def Sighting.passes (threshold : Level) (s : Sighting) : Bool :=
  !s.own || (threshold ≠ .off && threshold.rank ≤ s.event.level.rank)

/-- The events that are emitted when the watched logger has the threshold. -/
def emitted (threshold : Level) (sightings : List Sighting) : List Event :=
  (sightings.filter (·.passes threshold)).map (·.event)

/-- The end of a watched run. -/
structure Watched (α : Type) where
  result : Except ExecutionError α
  sightings : List Sighting
  state : World

/-- A watched course. -/
def Watch (α : Type) := World → Option (Watched α)

namespace Watched

variable {α : Type}

/-- The watched run with sightings before its own. -/
def after (sightings : List Sighting) (z : Watched α) : Watched α :=
  { z with sightings := sightings ++ z.sightings }

/-- The run whose watched logger has the threshold. -/
def through (threshold : Level) (z : Watched α) : Run World ExecutionError α :=
  ⟨z.result, emitted threshold z.sightings, z.state⟩

/-- The run, past the watched logger. -/
def past (z : Run World ExecutionError α) : Watched α :=
  ⟨z.result, z.events.map (⟨false, ·⟩), z.state⟩

end Watched

namespace Watch

variable {α β : Type}

/-- Watch the first course, then, if it gave a value, the one that follows. -/
def andThen (x : Watch α) (f : α → Watch β) : Watch β := fun w =>
  match x w with
  | none => none
  | some ⟨.ok a, sightings, w'⟩ => (f a w').map (·.after sightings)
  | some ⟨.error error, sightings, w'⟩ => some ⟨.error error, sightings, w'⟩

instance : Monad Watch where
  pure a := fun w => some ⟨.ok a, [], w⟩
  bind := andThen

/-- A course whose events do not go through the watched logger. -/
def past (x : Course α) : Watch α := fun w => (x w).map .past

instance : MonadLift (Process World ExecutionError) Watch := ⟨past⟩

/-- Log a message at a level through the watched logger. -/
def logAt (e : Evaluator) (level : Level) (message : Message) : Watch Unit := fun w =>
  some ⟨.ok (), (Logger.logAt ⟨e.logger.name, .trace⟩ level message).map (⟨true, ·⟩), w⟩

/-- Log a message through the watched logger. -/
def log (e : Evaluator) (message : Message) : Watch Unit := logAt e message.level message

/-- The answer of a watched course, value or error, as a value. -/
def attempt (x : Watch α) : Watch (Except ExecutionError α) := fun w =>
  (x w).map fun z => ⟨.ok z.result, z.sightings, z.state⟩

/-- The course whose watched logger has the threshold. -/
def through (threshold : Level) (x : Watch α) : Course α := fun w =>
  (x w).map (·.through threshold)

/-! ## Constructs, given how their parts are watched -/

/-- Watch something in an evaluator whose logger is the watched one, or a child's. -/
def within (e : Evaluator) (body : Watch Outcome) : Watch Outcome := do
  match ← body.attempt with
  | .ok outcome => pure outcome
  | .error error =>
    log e (.evaluationFailed e.name error)
    past (throw (.evaluator e.name error))

/-- Watch the rounds of a loop. -/
def rounds (body : Record → Watch Outcome) (condition : Record → Watch Bool)
    (bound : Option Nat) : (rounds : Nat) → (done : Nat) → Record → Watch LoopEnd
  | rounds, done, register => do
    if bound.any (· ≤ done) then pure ⟨register, done, false⟩
    else if !(← condition register) then pure ⟨register, done, false⟩
    else
      match rounds with
      | 0 => past Process.endless
      | n + 1 =>
        match ← body register with
        | .next register => Watch.rounds body condition bound n (done + 1) register
        | .exitLoop register => pure ⟨register, done, true⟩

/-- Watch a body on each element of a list. -/
def each (body : Record → Watch Outcome) : List Value → Watch (Option (List Value))
  | [] => pure (some [])
  | item :: rest => do
    let record ← past (Process.ofExcept item.expectRecord)
    match ← body record with
    | .exitLoop _ => pure none
    | .next result =>
      match ← each body rest with
      | none => pure none
      | some results => pure (some (.mapping result :: results))

/-- Watch a test on each element of a list. -/
def keep (test : Record → Watch Bool) : List Value → Watch (List Value)
  | [] => pure []
  | item :: rest => do
    let record ← past (Process.ofExcept item.expectRecord)
    let holds ← test record
    let kept ← keep test rest
    pure (if holds then .mapping record :: kept else kept)

end Watch

/-! ## Components -/

mutual

/-- Watch a component. -/
def Component.watch (rounds : Nat) : Component → Evaluator → Record → Watch Outcome
  | .action name view action, e, register => do
    let data ← Watch.past (Process.ofExcept ((view.select register).mapError (.action name)))
    let output ← Watch.past (Process.ofExcept ((action.execute data).mapError (.action name)))
    Watch.log e (.actionExecuted name)
    pure (.next (view.write register output))
  | .executable name view x, e, register => do
    let data ← Watch.past (Process.ofExcept ((view.select register).mapError (.executable name)))
    let (output, items) ← Watch.past (Process.ofEffect (executeSelected name x e data))
    Watch.log e (.executableExecuted name items)
    pure (.next (view.write register output))
  | .schema name steps, e, register => Component.watchSteps rounds name steps e 0 register
  | .loop name body condition bound, e, register => do
    let finish ← Watch.rounds
      (fun r => Watch.within (e.child name) (body.watch rounds (e.child name) r))
      (fun r => Predicate.watchOption rounds condition e r) bound rounds 0 register
    Watch.log e (.loopFinished name finish.iterations finish.exited)
    pure (.next finish.register)
  | .forEach name body getKey setKey, e, register => do
    let items ← Watch.past (Process.ofExcept (listAt register getKey))
    match ← Watch.each
      (fun r => Watch.within (e.child name) (body.watch rounds (e.child name) r)) items with
    | none => pure (.exitLoop register)
    | some results => pure (.next (register.insert setKey (.list results)))
  | .filter _ condition getKey setKey, e, register => do
    let items ← Watch.past (Process.ofExcept (listAt register getKey))
    let kept ← Watch.keep (fun r => condition.watch rounds e r) items
    pure (.next (register.insert setKey (.list kept)))
  | .switch name branches, e, register => Branch.watchAll rounds name branches e 0 register
  | .exit _, _, register => pure (.exitLoop register)
  | .log _ spec, e, register => do
    match spec.logger with
    | some logger =>
      Watch.past (Process.emit (logger.logAt spec.level (.line (spec.text register))))
    | none => Watch.logAt e spec.level (.line (e.name ++ ": " ++ spec.text register))
    pure (.next register)
  | .setMemory _ key getKey instruction, e, register =>
    Watch.past (Process.ofEffect (runSetMemory key getKey instruction e register))
  | .getMemory _ identifiers default instruction, e, register =>
    Watch.past (Process.ofEffect (runGetMemory identifiers default instruction e register))
  | .deleteMemory _ keys, e, register =>
    Watch.past (Process.ofEffect (runDeleteMemory keys e register))
  | .evaluator context body, _, register =>
    Watch.past (evaluateIn context (body.run rounds context register))

/-- Watch the steps of a schema from an index on. -/
def Component.watchSteps (rounds : Nat) (name : String) :
    List Component → Evaluator → (index : Nat) → Record → Watch Outcome
  | [], _, _, register => pure (.next register)
  | step :: rest, e, index, register => do
    match ← (step.watch rounds e register).attempt with
    | .ok (.next register) =>
      Watch.log e (.stepCompleted name index step.name)
      Component.watchSteps rounds name rest e (index + 1) register
    | .ok (.exitLoop register) => pure (.exitLoop register)
    | .error error =>
      Watch.log e (.stepFailed name index step.name error)
      if e.fastExit then Watch.past (throw (.schemaFailed name index step.name error))
      else
        Watch.log e (.stepSkipped name index)
        Component.watchSteps rounds name rest e (index + 1) register

/-- Watch the branches of a switch from an index on. -/
def Branch.watchAll (rounds : Nat) (name : String) :
    List Branch → Evaluator → (index : Nat) → Record → Watch Outcome
  | [], _, _, register => pure (.next register)
  | branch :: rest, e, index, register => do
    match ← branch.watch rounds e register with
    | .skipped register => Branch.watchAll rounds name rest e (index + 1) register
    | .taken (.exitLoop register) => pure (.exitLoop register)
    | .taken (.next register) =>
      Watch.log e (.branchTaken name branch.name index)
      if branch.exits then pure (.next register)
      else Branch.watchAll rounds name rest e (index + 1) register

/-- Watch a branch. -/
def Branch.watch (rounds : Nat) : Branch → Evaluator → Record → Watch BranchOutcome
  | .mk name condition body _, e, register => do
    if ← Predicate.watchOption rounds condition e register then
      let outcome ← Watch.within (e.child name) (body.watch rounds (e.child name) register)
      pure (.taken outcome)
    else pure (.skipped register)

/-- Watch an optional condition. -/
def Predicate.watchOption (rounds : Nat) : Option Predicate → Evaluator → Record → Watch Bool
  | none, _, _ => pure true
  | some p, e, register => p.watch rounds e register

/-- Watch a predicate. -/
def Predicate.watch (rounds : Nat) : Predicate → Evaluator → Record → Watch Bool
  | .test check, e, register => Watch.past (Process.ofEffect (check register e))
  | .not p, e, register => do
    let b ← p.watch rounds e register
    pure !b
  | .all ps, e, register => Predicate.watchAll rounds ps e register
  | .condition name validator body state, e, register => do
    let register ← match state with
      | none => pure register
      | some identifiers =>
        Watch.past (Process.ofEffect (e.getMemory register identifiers ∅ false))
    let outcome ← Watch.within (e.child name) (body.watch rounds (e.child name) register)
    validator.watch rounds e outcome.register

/-- Watch predicates up to the first that does not hold. -/
def Predicate.watchAll (rounds : Nat) : List Predicate → Evaluator → Record → Watch Bool
  | [], _, _ => pure true
  | p :: rest, e, register => do
    if ← p.watch rounds e register then Predicate.watchAll rounds rest e register
    else pure false

end

end Pipeline
