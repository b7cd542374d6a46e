import Pipeline.Component

/-!
# Running components

A component takes a register and gives the next one, or the signal that ends the
nearest loop.  `Component.run` follows the tree; only loops go on for a number of
rounds that the tree does not show, so the one parameter `rounds` bounds how often
any loop may go round.  A loop that needs more rounds gives no answer.  A run that
gives an answer gives the same one with more rounds.

The bodies of loops, branches, elements and conditions run in child evaluators
named after the construct.  An error gets a layer wherever it leaves a leaf, a
schema or an evaluator.
-/

namespace Pipeline

/-- What a component gives. -/
inductive Outcome
  /-- The register for the next step. -/
  | next (register : Record)
  /-- The signal that ends the nearest loop, with the register at that point. -/
  | exitLoop (register : Record)
  deriving DecidableEq

/-- The register of an outcome. -/
def Outcome.register : Outcome → Record
  | .next r => r
  | .exitLoop r => r

/-- The list at a key. -/
def listAt (register : Record) (key : String) : Except ExecutionError (List Value) :=
  match register.get? key with
  | some (.list xs) => .ok xs
  | some v => .error (.invalidInput (.notList key v.kind))
  | none => .error (.missingKey key)

/-! ## Leaves -/

/-- Run an action on a view of the register. -/
def runAction (name : String) (view : View) (action : Action) (e : Evaluator) (register : Record) :
    Act Outcome := do
  let data ← Effect.ofExcept ((view.select register).mapError (.action name))
  let output ← Effect.ofExcept ((action.execute data).mapError (.action name))
  Effect.emit (e.logger.log (.actionExecuted name))
  pure (.next (view.write register output))

/-- Run an executable on each mapping of a list, and merge each output into its
mapping. -/
def executeEach (name : String) (x : Executable) (e : Evaluator) : List Value → Act (List Value)
  | [] => pure []
  | item :: rest => do
    let record ← Effect.ofExcept (item.expectRecord.mapError (.executable name))
    let output ← x.execute record e
    let results ← executeEach name x e rest
    pure (.mapping (record.merge output) :: results)

/-- Run an executable on what a view selects: once on a mapping, or on each element
of a list. -/
def executeSelected (name : String) (x : Executable) (e : Evaluator) :
    Value → Act (Output × Nat)
  | .mapping record => do
    let output ← x.execute record e
    pure (.mapping output, 1)
  | .list items => do
    let results ← executeEach name x e items
    pure (.value (.list results), items.length)
  | v => throw (.executable name (.invalidInput (.notProcessable v.kind)))

/-- Run an executable on a view of the register. -/
def runExecutable (name : String) (view : View) (x : Executable) (e : Evaluator)
    (register : Record) : Act Outcome := do
  let data ← Effect.ofExcept ((view.select register).mapError (.executable name))
  let (output, items) ← executeSelected name x e data
  Effect.emit (e.logger.log (.executableExecuted name items))
  pure (.next (view.write register output))

/-- Log a line about the register. -/
def runLog (spec : LogSpec) (e : Evaluator) (register : Record) : Act Outcome := do
  match spec.logger with
  | some logger => Effect.emit (logger.logAt spec.level (.line (spec.text register)))
  | none => Effect.emit (e.logLine spec.level (spec.text register))
  pure (.next register)

/-- Store in memory; a moved value leaves the register. -/
def runSetMemory (key : String) (getKey : Option String) (instruction : SetInstruction)
    (e : Evaluator) (register : Record) : Act Outcome := do
  e.setMemory register getKey key
  match instruction, getKey with
  | .set, _ => pure (.next register)
  | .move, some k => pure (.next (register.erase k))
  | .move, none => pure (.next ∅)

/-- Copy entries of memory into the register; popped entries leave the memory. -/
def runGetMemory (identifiers : List Identifier) (default : Record) (instruction : GetInstruction)
    (e : Evaluator) (register : Record) : Act Outcome := do
  let register ← e.getMemory register identifiers default (instruction = .pop)
  pure (.next register)

/-- Take the listed entries out of memory, or all when none are listed. -/
def runDeleteMemory (keys : List String) (e : Evaluator) (register : Record) : Act Outcome := do
  if keys.isEmpty then e.flushMemory else e.deleteMemory keys
  pure (.next register)

/-! ## Constructs, given how their parts run -/

/-- Run something in an evaluator: an error that leaves it is logged and gets the
evaluator's name. -/
def evaluateIn (e : Evaluator) (body : Course Outcome) : Course Outcome := do
  match ← body.attempt with
  | .ok outcome => pure outcome
  | .error error =>
    Process.emit (e.logger.log (.evaluationFailed e.name error))
    throw (.evaluator e.name error)

/-- How a loop ended: the register, the rounds that were completed, and whether the
signal ended it. -/
structure LoopEnd where
  register : Record
  iterations : Nat
  exited : Bool

/-- Go round a loop: stop at the bound, then at a condition that does not hold, then
at the signal. -/
def runRounds (body : Record → Course Outcome) (condition : Record → Course Bool)
    (bound : Option Nat) : (rounds : Nat) → (done : Nat) → Record → Course LoopEnd
  | rounds, done, register => do
    if bound.any (· ≤ done) then pure ⟨register, done, false⟩
    else if !(← condition register) then pure ⟨register, done, false⟩
    else
      match rounds with
      | 0 => Process.endless
      | rounds + 1 =>
        match ← body register with
        | .next register => runRounds body condition bound rounds (done + 1) register
        | .exitLoop register => pure ⟨register, done, true⟩

/-- Run a body on each element of a list: the results, or nothing when one of them
gave the signal that ends a loop. -/
def runEach (body : Record → Course Outcome) : List Value → Course (Option (List Value))
  | [] => pure (some [])
  | item :: rest => do
    let record ← Process.ofExcept item.expectRecord
    match ← body record with
    | .exitLoop _ => pure none
    | .next result =>
      match ← runEach body rest with
      | none => pure none
      | some results => pure (some (.mapping result :: results))

/-- Keep the elements of a list for which a test holds. -/
def keepEach (test : Record → Course Bool) : List Value → Course (List Value)
  | [] => pure []
  | item :: rest => do
    let record ← Process.ofExcept item.expectRecord
    let keep ← test record
    let kept ← keepEach test rest
    pure (if keep then .mapping record :: kept else kept)

/-- What a branch does with a register. -/
inductive BranchOutcome
  /-- The condition held and the body ran. -/
  | taken (outcome : Outcome)
  /-- The condition did not hold. -/
  | skipped (register : Record)

/-! ## Components -/

mutual

/-- Run a component on a register. -/
def Component.run (rounds : Nat) : Component → Evaluator → Record → Course Outcome
  | .action name view action, e, register => (runAction name view action e register : Act _)
  | .executable name view x, e, register => (runExecutable name view x e register : Act _)
  | .schema name steps, e, register => runSteps rounds name steps e 0 register
  | .loop name body condition bound, e, register => do
    let finish ← runRounds
      (fun r => evaluateIn (e.child name) (body.run rounds (e.child name) r))
      (fun r => holds rounds condition e r) bound rounds 0 register
    Process.emit (e.logger.log (.loopFinished name finish.iterations finish.exited))
    pure (.next finish.register)
  | .forEach name body getKey setKey, e, register => do
    let items ← Process.ofExcept (listAt register getKey)
    match ← runEach (fun r => evaluateIn (e.child name) (body.run rounds (e.child name) r)) items with
    | none => pure (.exitLoop register)
    | some results => pure (.next (register.insert setKey (.list results)))
  | .filter _ condition getKey setKey, e, register => do
    let items ← Process.ofExcept (listAt register getKey)
    let kept ← keepEach (fun r => condition.check rounds e r) items
    pure (.next (register.insert setKey (.list kept)))
  | .switch name branches, e, register => runBranches rounds name branches e 0 register
  | .exit _, _, register => pure (.exitLoop register)
  | .log _ spec, e, register => (runLog spec e register : Act _)
  | .setMemory _ key getKey instruction, e, register =>
    (runSetMemory key getKey instruction e register : Act _)
  | .getMemory _ identifiers default instruction, e, register =>
    (runGetMemory identifiers default instruction e register : Act _)
  | .deleteMemory _ keys, e, register => (runDeleteMemory keys e register : Act _)
  | .evaluator context body, _, register => evaluateIn context (body.run rounds context register)

/-- Run the steps of a schema from an index on.  A failed step ends the schema, or
else the next step gets the register from before it. -/
def runSteps (rounds : Nat) (name : String) :
    List Component → Evaluator → (index : Nat) → Record → Course Outcome
  | [], _, _, register => pure (.next register)
  | step :: rest, e, index, register => do
    match ← (step.run rounds e register).attempt with
    | .ok (.next register) =>
      Process.emit (e.logger.log (.stepCompleted name index step.name))
      runSteps rounds name rest e (index + 1) register
    | .ok (.exitLoop register) => pure (.exitLoop register)
    | .error error =>
      Process.emit (e.logger.log (.stepFailed name index step.name error))
      if e.fastExit then throw (.schemaFailed name index step.name error)
      else
        Process.emit (e.logger.log (.stepSkipped name index))
        runSteps rounds name rest e (index + 1) register

/-- Offer a register to the branches of a switch from an index on. -/
def runBranches (rounds : Nat) (name : String) :
    List Branch → Evaluator → (index : Nat) → Record → Course Outcome
  | [], _, _, register => pure (.next register)
  | branch :: rest, e, index, register => do
    match ← branch.offer rounds e register with
    | .skipped register => runBranches rounds name rest e (index + 1) register
    | .taken (.exitLoop register) => pure (.exitLoop register)
    | .taken (.next register) =>
      Process.emit (e.logger.log (.branchTaken name branch.name index))
      if branch.exits then pure (.next register)
      else runBranches rounds name rest e (index + 1) register

/-- Offer a register to a branch. -/
def Branch.offer (rounds : Nat) : Branch → Evaluator → Record → Course BranchOutcome
  | .mk name condition body _, e, register => do
    if ← holds rounds condition e register then
      let outcome ← evaluateIn (e.child name) (body.run rounds (e.child name) register)
      pure (.taken outcome)
    else pure (.skipped register)

/-- Whether an optional condition holds; one that is not there does. -/
def holds (rounds : Nat) : Option Predicate → Evaluator → Record → Course Bool
  | none, _, _ => pure true
  | some p, e, register => p.check rounds e register

/-- Whether a predicate holds of a register. -/
def Predicate.check (rounds : Nat) : Predicate → Evaluator → Record → Course Bool
  | .test check, e, register => (check register e : Act _)
  | .not p, e, register => do
    let b ← p.check rounds e register
    pure !b
  | .all ps, e, register => checkAll rounds ps e register
  | .condition name validator body state, e, register => do
    let register ← match state with
      | none => pure register
      | some identifiers => (e.getMemory register identifiers ∅ false : Act _)
    let outcome ← evaluateIn (e.child name) (body.run rounds (e.child name) register)
    validator.check rounds e outcome.register

/-- Whether all predicates hold, up to the first that does not. -/
def checkAll (rounds : Nat) : List Predicate → Evaluator → Record → Course Bool
  | [], _, _ => pure true
  | p :: rest, e, register => do
    if ← p.check rounds e register then checkAll rounds rest e register
    else pure false

end

/-- Run a component in an evaluator. -/
def Component.evaluate (rounds : Nat) (body : Component) (e : Evaluator) (register : Record) :
    Course Outcome :=
  evaluateIn e (body.run rounds e register)

/-- Run a component in an evaluator as a whole: a loop signal that leaves it ends
the run with the register at that point. -/
def Component.runAll (rounds : Nat) (body : Component) (e : Evaluator) (register : Record) :
    Course Record := do
  match ← body.evaluate rounds e register with
  | .next register => pure register
  | .exitLoop register =>
    Process.emit (e.logger.log (.exitOutsideLoop e.name))
    pure register

/-- Run a component alone, in an evaluator with default settings. -/
def Component.runAlone (rounds : Nat) (body : Component) (memory : MemoryId) (register : Record) :
    Course Record := do
  let outcome ← body.run rounds (.make defaultEvaluatorName .trace true memory) register
  pure outcome.register

end Pipeline
