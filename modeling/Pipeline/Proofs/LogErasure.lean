import Pipeline.Proofs.Alike

/-!
# Log steps can be erased

A log step writes its line and hands its register on.  `Component.withoutLogs` takes every
such step out of the schemas of a tree, at any depth (`Component.every_withoutLogs`); a log
component that is no step of a schema stays.

Erasing moves the steps behind a log step forward, so an error may name another index for
the step that failed.  Nothing else of a run depends on log steps but its events
(`run_withoutLogs`): both trees give the same outcome in the same world, or both fail with
errors that are the same up to those indices (`log_steps_erasable`).
-/

namespace Pipeline

/-! ## Errors without indices -/

/-- The layer without the index of the step. -/
def Layer.unindexed : Layer → Layer
  | .schema name _ component => .schema name 0 component
  | layer => layer

/-- The cause of an error, and its layers without the indices of steps. -/
def ExecutionError.outline (error : ExecutionError) : ExecutionError × List Layer :=
  (error.rootCause, error.layers.map Layer.unindexed)

/-- The errors have layers of the same kinds and the same names around the same cause. -/
structure ExecutionError.SamePath (error error' : ExecutionError) : Prop where
  rootCause : error.rootCause = error'.rootCause
  contextChain : error.contextChain = error'.contextChain
  kinds : error.layers.map Layer.kind = error'.layers.map Layer.kind

namespace ExecutionError

variable {error error' : ExecutionError}

/-- Errors with one outline are the same up to indices. -/
theorem samePath_of_outline (h : error.outline = error'.outline) : SamePath error error' := by
  obtain ⟨hcause, hlayers⟩ := Prod.mk.inj h
  refine ⟨hcause, ?_, ?_⟩
  · have hname : Layer.name ∘ Layer.unindexed = Layer.name := by
      funext layer
      cases layer <;> rfl
    have hnames := congrArg (List.map Layer.name) hlayers
    simpa only [List.map_map, hname, ← contextChain_eq_layers] using hnames
  · have hkind : Layer.kind ∘ Layer.unindexed = Layer.kind := by
      funext layer
      cases layer <;> rfl
    have hkinds := congrArg (List.map Layer.kind) hlayers
    simpa only [List.map_map, hkind] using hkinds

theorem outline_wrap (layer : Layer) (error : ExecutionError) :
    (layer.wrap error).outline =
      (error.rootCause, layer.unindexed :: error.layers.map Layer.unindexed) := by
  cases layer <;> rfl

end ExecutionError

/-- Layers that are equal without indices are alike around errors with one outline. -/
theorem Layer.alike_of_unindexed {layer layer' : Layer} (h : layer.unindexed = layer'.unindexed) :
    Layer.Alike ExecutionError.outline layer layer' := by
  intro error error' herror
  obtain ⟨hcause, hlayers⟩ := Prod.mk.inj herror
  rw [ExecutionError.outline_wrap, ExecutionError.outline_wrap, h, hcause, hlayers]

/-! ## Trees without log steps -/

/-- Whether a component is a line for a logger. -/
def Component.isLog : Component → Bool
  | .log .. => true
  | _ => false

mutual

/-- The tree without the log steps of its schemas. -/
def Component.withoutLogs : Component → Component
  | .schema name steps => .schema name (Component.withoutLogSteps steps)
  | .loop name body condition bound =>
    .loop name body.withoutLogs (Predicate.withoutLogsOption condition) bound
  | .forEach name body getKey setKey => .forEach name body.withoutLogs getKey setKey
  | .filter name condition getKey setKey => .filter name condition.withoutLogs getKey setKey
  | .switch name branches => .switch name (Branch.withoutLogsAll branches)
  | .evaluator context body => .evaluator context body.withoutLogs
  | leaf => leaf

/-- The steps that are no log steps, each without those in it. -/
def Component.withoutLogSteps : List Component → List Component
  | [] => []
  | step :: rest =>
    if step.isLog then Component.withoutLogSteps rest
    else step.withoutLogs :: Component.withoutLogSteps rest

/-- The branches without log steps. -/
def Branch.withoutLogsAll : List Branch → List Branch
  | [] => []
  | branch :: rest => branch.withoutLogs :: Branch.withoutLogsAll rest

/-- The branch without log steps. -/
def Branch.withoutLogs : Branch → Branch
  | .mk name condition body exits =>
    .mk name (Predicate.withoutLogsOption condition) body.withoutLogs exits

/-- The condition, if there is one, without log steps. -/
def Predicate.withoutLogsOption : Option Predicate → Option Predicate
  | none => none
  | some p => some p.withoutLogs

/-- The predicate without log steps. -/
def Predicate.withoutLogs : Predicate → Predicate
  | .test check => .test check
  | .not p => .not p.withoutLogs
  | .all ps => .all (Predicate.withoutLogsAll ps)
  | .condition name validator body state =>
    .condition name validator.withoutLogs body.withoutLogs state

/-- The predicates without log steps. -/
def Predicate.withoutLogsAll : List Predicate → List Predicate
  | [] => []
  | p :: rest => p.withoutLogs :: Predicate.withoutLogsAll rest

end

theorem Component.name_withoutLogs (c : Component) : c.withoutLogs.name = c.name := by
  cases c <;> rfl

theorem Component.isLog_withoutLogs (c : Component) : c.withoutLogs.isLog = c.isLog := by
  cases c <;> rfl

/-- What is left of the steps is no log step, since erasing inside a step does not make it one. -/
theorem Component.not_isLog_of_mem_withoutLogSteps {steps : List Component} {step : Component}
    (h : step ∈ Component.withoutLogSteps steps) : step.isLog = false := by
  induction steps with
  | nil => cases h
  | cons first rest ih =>
    rw [withoutLogSteps] at h
    split at h
    · exact ih h
    · rename_i hfirst
      rcases List.mem_cons.mp h with rfl | hrest
      · rw [isLog_withoutLogs, Bool.not_eq_true] at *
        exact hfirst
      · exact ih hrest

/-- If the component is a schema, none of its steps is a log step. -/
def Component.StepsAreNoLogs : Component → Prop
  | .schema _ steps => ∀ step ∈ steps, step.isLog = false
  | _ => True

mutual

/-- No log step is left in any schema of the tree. -/
theorem Component.every_withoutLogs (c : Component) :
    c.withoutLogs.Every Component.StepsAreNoLogs (fun _ => True) := by
  match c with
  | .schema name steps =>
    exact ⟨fun _ => Component.not_isLog_of_mem_withoutLogSteps,
      Component.everyStep_withoutLogSteps steps⟩
  | .loop name body condition bound =>
    exact ⟨trivial, body.every_withoutLogs, Predicate.everyOption_withoutLogs condition⟩
  | .forEach name body getKey setKey => exact ⟨trivial, body.every_withoutLogs⟩
  | .filter name condition getKey setKey => exact ⟨trivial, condition.every_withoutLogs⟩
  | .switch name branches => exact ⟨trivial, Branch.everyOf_withoutLogs branches⟩
  | .evaluator context body => exact ⟨trivial, body.every_withoutLogs⟩
  | .action .. | .executable .. | .exit .. | .log .. | .setMemory .. | .getMemory ..
  | .deleteMemory .. => exact trivial

theorem Component.everyStep_withoutLogSteps (steps : List Component) :
    Component.EveryStep Component.StepsAreNoLogs (fun _ => True)
      (Component.withoutLogSteps steps) := by
  match steps with
  | [] => exact trivial
  | step :: rest =>
    rw [Component.withoutLogSteps]
    split
    · exact Component.everyStep_withoutLogSteps rest
    · exact ⟨step.every_withoutLogs, Component.everyStep_withoutLogSteps rest⟩

theorem Branch.everyOf_withoutLogs (branches : List Branch) :
    Branch.EveryOf Component.StepsAreNoLogs (fun _ => True) (Branch.withoutLogsAll branches) := by
  match branches with
  | [] => exact trivial
  | .mk name condition body exits :: rest =>
    have hbranch : Branch.Every Component.StepsAreNoLogs (fun _ => True)
        (Branch.mk name condition body exits).withoutLogs :=
      ⟨Predicate.everyOption_withoutLogs condition, body.every_withoutLogs⟩
    exact ⟨hbranch, Branch.everyOf_withoutLogs rest⟩

theorem Predicate.everyOption_withoutLogs (condition : Option Predicate) :
    Predicate.EveryOption Component.StepsAreNoLogs (fun _ => True)
      (Predicate.withoutLogsOption condition) := by
  match condition with
  | none => exact trivial
  | some p => exact p.every_withoutLogs

theorem Predicate.every_withoutLogs (p : Predicate) :
    p.withoutLogs.Every Component.StepsAreNoLogs (fun _ => True) := by
  match p with
  | .test check => exact trivial
  | .not p => exact ⟨trivial, p.every_withoutLogs⟩
  | .all ps => exact ⟨trivial, Predicate.everyOf_withoutLogs ps⟩
  | .condition name validator body state =>
    exact ⟨trivial, validator.every_withoutLogs, body.every_withoutLogs⟩

theorem Predicate.everyOf_withoutLogs (ps : List Predicate) :
    Predicate.EveryOf Component.StepsAreNoLogs (fun _ => True) (Predicate.withoutLogsAll ps) := by
  match ps with
  | [] => exact trivial
  | p :: rest => exact ⟨p.every_withoutLogs, Predicate.everyOf_withoutLogs rest⟩

end

/-! ## The run -/

/-- A log step hands its register on and leaves the world as it was. -/
theorem Component.ending_of_isLog {c : Component} (h : c.isLog = true) (rounds : Nat)
    (e : Evaluator) (register : Record) (w : World) :
    (c.run rounds e register).ending w = some (.ok (.next register), w) := by
  cases c with
  | log name spec =>
    obtain ⟨level, _ | logger, message, opening, closing, includeInput⟩ := spec <;> rfl
  | action | executable | schema | loop | forEach | filter | switch | exit | setMemory | getMemory
  | deleteMemory | evaluator => cases h

/-- The courses end alike, up to the indices of steps in an error. -/
abbrev SameRun {α : Type} (x y : Course α) : Prop := AlikeUpTo ExecutionError.outline x y

namespace SameRun

variable {α : Type}

/-- An evaluator puts the same layer around errors with one outline. -/
theorem within (e : Evaluator) {x y : Course Outcome} (h : SameRun x y) :
    SameRun (evaluateIn e x) (evaluateIn e y) :=
  AlikeUpTo.within (Layer.alike_of_unindexed rfl) h

/-- A step may stand at another index. -/
theorem step (e : Evaluator) (name : String) (index index' : Nat) (component : String)
    (register : Record) {x y : Course Outcome} {f g : Record → Course Outcome}
    (hx : SameRun x y) (hf : ∀ r, SameRun (f r) (g r)) :
    SameRun (afterStep e name index component register x f)
      (afterStep e name index' component register y g) := by
  have hlayer : Layer.Alike ExecutionError.outline (.schema name index component)
      (.schema name index' component) := Layer.alike_of_unindexed rfl
  exact AlikeUpTo.step rfl hlayer register hx hf

/-- What follows a log step runs from the register before it. -/
theorem after_log {c : Component} (hc : c.isLog = true) (rounds : Nat) (e : Evaluator)
    (name : String) (index : Nat) (register : Record) (next : Record → Course Outcome) :
    SameRun (afterStep e name index c.name register (c.run rounds e register) next)
      (next register) := by
  refine AlikeUpTo.of_ending fun w => ?_
  rw [ending_afterStep, Component.ending_of_isLog hc]

end SameRun

-- The indices on the two sides drift apart with every erased step, so they are any two.
mutual

/-- A tree does without log steps what it does with them. -/
theorem run_withoutLogs (rounds : Nat) (c : Component) (e : Evaluator) (register : Record) :
    SameRun (c.run rounds e register) (c.withoutLogs.run rounds e register) := by
  match c with
  | .schema name steps => exact runSteps_withoutLogs rounds steps e name 0 0 register
  | .loop name body condition bound =>
    have hbody (r : Record) :=
      SameRun.within (e.child name) (run_withoutLogs rounds body (e.child name) r)
    have hrounds := AlikeUpTo.congruence.sameRounds hbody
      (holds_withoutLogs rounds condition e) bound rounds 0 register
    exact hrounds.bind fun finish => AlikeUpTo.refl _
  | .forEach name body getKey setKey =>
    have hbody (r : Record) :=
      SameRun.within (e.child name) (run_withoutLogs rounds body (e.child name) r)
    refine (AlikeUpTo.refl _).bind fun items => ?_
    exact (AlikeUpTo.congruence.each hbody fun _ _ => AlikeUpTo.refl _).bind
      fun results => AlikeUpTo.refl _
  | .filter name condition getKey setKey =>
    refine (AlikeUpTo.refl _).bind fun items => ?_
    exact (AlikeUpTo.congruence.kept (check_withoutLogs rounds condition e)
      fun _ _ => AlikeUpTo.refl _).bind fun kept => AlikeUpTo.refl _
  | .switch name branches => exact runBranches_withoutLogs rounds branches e name 0 register
  | .evaluator context body =>
    exact SameRun.within context (run_withoutLogs rounds body context register)
  | .action .. | .executable .. | .exit _ | .log .. | .setMemory .. | .getMemory ..
  | .deleteMemory .. => exact AlikeUpTo.refl _

/-- A log step behind which the schema goes on is passed over. -/
theorem runSteps_withoutLogs (rounds : Nat) (steps : List Component) (e : Evaluator)
    (name : String) (index index' : Nat) (register : Record) :
    SameRun (runSteps rounds name steps e index register)
      (runSteps rounds name (Component.withoutLogSteps steps) e index' register) := by
  match steps with
  | [] => exact AlikeUpTo.refl _
  | step :: rest =>
    rw [Component.withoutLogSteps, runSteps_cons]
    split
    next hlog =>
      exact (SameRun.after_log hlog rounds e name index register _).trans
        (runSteps_withoutLogs rounds rest e name (index + 1) index' register)
    next =>
      rw [runSteps_cons, step.name_withoutLogs]
      refine SameRun.step e name index index' step.name register
        (run_withoutLogs rounds step e register) fun r => ?_
      exact runSteps_withoutLogs rounds rest e name (index + 1) (index' + 1) r

/-- The branches of a switch keep their indices. -/
theorem runBranches_withoutLogs (rounds : Nat) (branches : List Branch) (e : Evaluator)
    (name : String) (index : Nat) (register : Record) :
    SameRun (runBranches rounds name branches e index register)
      (runBranches rounds name (Branch.withoutLogsAll branches) e index register) := by
  match branches with
  | [] => exact AlikeUpTo.refl _
  | .mk own condition body exits :: rest =>
    have hrest (r : Record) := runBranches_withoutLogs rounds rest e name (index + 1) r
    refine (offer_withoutLogs rounds (.mk own condition body exits) e register).bind ?_
    intro outcome
    match outcome with
    | .skipped r => exact hrest r
    | .taken (.exitLoop r) => exact AlikeUpTo.refl _
    | .taken (.next r) =>
      refine (AlikeUpTo.refl _).bind fun _ => ?_
      cases exits with
      | true => exact AlikeUpTo.refl _
      | false => exact hrest r

/-- A branch does without log steps what it does with them. -/
theorem offer_withoutLogs (rounds : Nat) (branch : Branch) (e : Evaluator) (register : Record) :
    SameRun (branch.offer rounds e register) (branch.withoutLogs.offer rounds e register) := by
  match branch with
  | .mk name condition body exits =>
    refine (holds_withoutLogs rounds condition e register).bind fun holds => ?_
    split
    · exact (SameRun.within (e.child name)
        (run_withoutLogs rounds body (e.child name) register)).bind
          fun outcome => AlikeUpTo.refl _
    · exact AlikeUpTo.refl _

theorem holds_withoutLogs (rounds : Nat) (condition : Option Predicate) (e : Evaluator)
    (register : Record) :
    SameRun (holds rounds condition e register)
      (holds rounds (Predicate.withoutLogsOption condition) e register) := by
  match condition with
  | none => exact AlikeUpTo.refl _
  | some p => exact check_withoutLogs rounds p e register

/-- A predicate gives without log steps what it gives with them. -/
theorem check_withoutLogs (rounds : Nat) (p : Predicate) (e : Evaluator) (register : Record) :
    SameRun (p.check rounds e register) (p.withoutLogs.check rounds e register) := by
  match p with
  | .test check => exact AlikeUpTo.refl _
  | .not p => exact (check_withoutLogs rounds p e register).bind fun holds => AlikeUpTo.refl _
  | .all ps => exact checkAll_withoutLogs rounds ps e register
  | .condition name validator body state =>
    have hchecked (r : Record) :=
      (SameRun.within (e.child name) (run_withoutLogs rounds body (e.child name) r)).bind
        fun outcome => check_withoutLogs rounds validator e outcome.register
    cases state with
    | none => exact (AlikeUpTo.refl _).bind hchecked
    | some identifiers => exact (AlikeUpTo.refl _).bind hchecked

theorem checkAll_withoutLogs (rounds : Nat) (ps : List Predicate) (e : Evaluator)
    (register : Record) :
    SameRun (checkAll rounds ps e register)
      (checkAll rounds (Predicate.withoutLogsAll ps) e register) := by
  match ps with
  | [] => exact AlikeUpTo.refl _
  | p :: rest =>
    refine (check_withoutLogs rounds p e register).bind fun holds => ?_
    split
    · exact checkAll_withoutLogs rounds rest e register
    · exact AlikeUpTo.refl _

end

/-! ## The result -/

/-- Log steps can be erased.  A tree ends without them as it ends with them, from every
register in every evaluator and every world: both trees give the same outcome in the same
world, or both fail in the same world, with the same layers, up to the indices of steps,
around the same cause. -/
theorem log_steps_erasable (c : Component) (e : Evaluator) (register : Record) (w w' : World) :
    (∀ outcome, c.Ends e register w (.ok outcome) w' ↔
      c.withoutLogs.Ends e register w (.ok outcome) w') ∧
    (∀ error, c.Ends e register w (.error error) w' →
      ∃ error', c.withoutLogs.Ends e register w (.error error') w' ∧ error.SamePath error') ∧
    ∀ error', c.withoutLogs.Ends e register w (.error error') w' →
      ∃ error, c.Ends e register w (.error error) w' ∧ error.SamePath error' := by
  have hrun (rounds : Nat) := run_withoutLogs rounds c e register
  obtain ⟨hok, herror⟩ := AlikeUpTo.ends hrun w w'
  obtain ⟨hok', herror'⟩ := AlikeUpTo.ends (fun rounds => (hrun rounds).symm) w w'
  refine ⟨fun outcome => ⟨hok outcome, hok' outcome⟩, ?_, ?_⟩
  · intro error hends
    obtain ⟨error', hends', hsame⟩ := herror error hends
    exact ⟨error', hends', ExecutionError.samePath_of_outline hsame⟩
  · intro error' hends'
    obtain ⟨error, hends, hsame⟩ := herror' error' hends'
    exact ⟨error, hends, ExecutionError.samePath_of_outline hsame.symm⟩

end Pipeline
