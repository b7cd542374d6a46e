import Pipeline.Proofs.Halting
import Pipeline.Proofs.LeafErrors

/-!
# The log of a failure

A schema reports a failed step and an evaluator reports what leaves it, each in a
statement apart from the one that puts its layer around the error.  Under fast exit the
reports of a run are still those of its error's layers, innermost first
(`failures_mirror_layers`), and a run that gave a value reported no failure.

`LogsLayers` is what every construct keeps: a part that failed has reported its layers,
and a part that gave a value has reported nothing, so a construct that goes on has
nothing behind it.  A test that reports of its own, or fails within layers, breaks this
(`mirroring_needs_tests`).
-/

namespace Pipeline

/-! ## Reports and layers -/

/-- The message reports a failure, or that a schema goes on after one. -/
def Message.isFailure : Message → Bool
  | .stepFailed .. | .stepSkipped .. | .evaluationFailed .. => true
  | _ => false

/-- The failures that some events report, in order. -/
def failures (events : List Event) : List Message :=
  (events.map (·.message)).filter Message.isFailure

/-- The event reports no failure. -/
def Event.Calm (event : Event) : Prop := event.message.isFailure = false

/-- The reports of the schema and evaluator layers around an error, innermost first, up to
the layer of a leaf. -/
def ExecutionError.reports : ExecutionError → List Message
  | .schemaFailed name step component inner =>
    inner.reports ++ [.stepFailed name step component inner]
  | .evaluator name inner => inner.reports ++ [.evaluationFailed name inner]
  | _ => []

/-- The reports of all schema and evaluator layers of an error, innermost first, also of
those in the error of a leaf's work. -/
def ExecutionError.allReports : ExecutionError → List Message
  | .schemaFailed name step component inner =>
    inner.allReports ++ [.stepFailed name step component inner]
  | .evaluator name inner => inner.allReports ++ [.evaluationFailed name inner]
  | .action _ inner => inner.allReports
  | .executable _ inner => inner.allReports
  | _ => []

@[simp] theorem failures_append (first second : List Event) :
    failures (first ++ second) = failures first ++ failures second := by
  simp [failures]

/-- Events report no failure when each of them is calm. -/
theorem failures_eq_nil {events : List Event} :
    failures events = [] ↔ ∀ event ∈ events, event.Calm := by
  simp [failures, Event.Calm, List.filter_eq_nil_iff]

theorem failures_logAt_of_calm (l : Logger) (level : Level) {message : Message}
    (h : message.isFailure = false) : failures (l.logAt level message) = [] := by
  rw [failures_eq_nil, Logger.logAt]
  intro event hmem
  split at hmem
  · rw [List.mem_singleton.mp hmem]
    exact h
  · cases hmem

theorem failures_log_of_calm (l : Logger) {message : Message} (h : message.isFailure = false) :
    failures (l.log message) = [] :=
  failures_logAt_of_calm l message.level h

/-- A logger that is not off lets errors pass. -/
theorem failures_log_of_error {l : Logger} (h : l.threshold ≠ .off) {message : Message}
    (hlevel : message.level = .error) (hfailure : message.isFailure = true) :
    failures (l.log message) = [message] := by
  have henabled : l.enabled .error = true := by
    unfold Logger.enabled
    generalize l.threshold = threshold at h ⊢
    cases threshold with
    | off => exact absurd rfl h
    | trace | debug | info | warn | error => rfl
  simp [Logger.log, Logger.logAt, hlevel, henabled, failures, hfailure]

/-- A cause is in no layer. -/
theorem ExecutionError.reports_of_isCause {error : ExecutionError} (h : error.IsCause) :
    error.reports = [] := by
  cases error with
  | action | executable | schemaFailed | evaluator => cases h
  | missingKey | invalidQuery | invalidInput | validation | memory | other => rfl

/-- What memory reports is no failure. -/
theorem Event.IsMemory.calm {event : Event} (h : event.IsMemory) : event.Calm := by
  obtain ⟨level, logger, message⟩ := event
  cases message with
  | stepFailed | stepSkipped | evaluationFailed => cases h
  | _ => rfl

/-! ## What is asked of a tree -/

open Effect (Emits)

/-- The executable reports no failure of its own. -/
def Executable.Calm (x : Executable) : Prop :=
  ∀ data e, Emits (x.invoke data e) Event.Calm

/-- The evaluator stops at a failure and its logger lets errors pass. -/
def Evaluator.Reports (e : Evaluator) : Prop := e.fastExit = true ∧ e.logger.threshold ≠ .off

/-- A nested evaluator reports, and an executable leaves reporting to it. -/
def Component.Reports : Component → Prop
  | .evaluator context _ => context.Reports
  | .executable _ _ x => x.Calm
  | _ => True

/-- A test reports no failure, and its errors are in no layer of a schema or evaluator. -/
def Predicate.Reports : Predicate → Prop
  | .test check => ∀ register e,
    Emits (check register e) Event.Calm ∧ (check register e).Fails fun error => error.reports = []
  | _ => True

/-! ## Leaves -/

theorem onMemory_emits_calm {α : Type} (id : MemoryId) {x : Store.Action α}
    (h : Emits x Event.IsMemory) : Emits (World.onMemory id x) Event.Calm :=
  (World.onMemory_emits id h).mono fun _ => Event.IsMemory.calm

theorem Evaluator.getMemory_emits (e : Evaluator) (register : Record)
    (identifiers : List Identifier) (default : Record) (delete : Bool) :
    Emits (e.getMemory register identifiers default delete) Event.Calm :=
  onMemory_emits_calm e.memory (Memory.get_emits default delete identifiers register)

theorem emits_log (l : Logger) (level : Level) {message : Message}
    (h : message.isFailure = false) :
    Emits (Effect.emit (l.logAt level message) : Act Unit) Event.Calm :=
  Emits.emit (failures_eq_nil.mp (failures_logAt_of_calm l level h))

/-- What a leaf does around its work is calm. -/
theorem leafLogic_calm : LeafLogic fun x => Emits x Event.Calm where
  answer y := Emits.ofExcept y
  report l level message h := by
    apply emits_log
    cases message with
    | stepFailed | stepSkipped | evaluationFailed => cases h
    | _ => rfl
  bind := Emits.bind
  mapError g h := h.mapError g

/-- A leaf reports no failure when its work reports none. -/
theorem Component.IsLeaf.emits_calm {c : Component} (hc : c.IsLeaf) (h : c.Reports)
    (rounds : Nat) (e : Evaluator) (register : Record) :
    (c.run rounds e register).Emits Event.Calm := by
  have hwork : c.WorkKeeps (fun x => Emits x Event.Calm) e := by
    cases c with
    | executable name view x => exact fun data => h data e
    | setMemory name key =>
      exact fun value => onMemory_emits_calm e.memory (Memory.set_emits key value)
    | getMemory => exact fun register => e.getMemory_emits register _ _ _
    | deleteMemory name keys =>
      exact ⟨onMemory_emits_calm e.memory Memory.flush_emits,
        onMemory_emits_calm e.memory (Memory.deleteAll_emits keys)⟩
    | action | exit | log => trivial
    | schema | loop | forEach | filter | switch | evaluator => cases hc
  obtain ⟨x, hx, hemits⟩ := leafLogic_calm.leaf hc hwork rounds register
  rw [hx]
  exact .ofEffect hemits

/-! ## Runs -/

/-- What an answer has to show for itself in the log. -/
def reported {α : Type} : Except ExecutionError α → List Message
  | .ok _ => []
  | .error error => error.reports

/-- The failures that a course reports are the layers of its error, innermost first. -/
def LogsLayers {α : Type} (x : Course α) : Prop :=
  ∀ ⦃w : World⦄ ⦃z : Run World ExecutionError α⦄, x w = some z →
    failures z.events = reported z.result

namespace LogsLayers

variable {α β : Type}

theorem pure (a : α) : LogsLayers (Pure.pure a : Course α) := by
  intro w z hrun
  cases hrun
  rfl

/-- What reports nothing, and fails with no layer to report. -/
theorem of_calm {x : Course α} (hemits : x.Emits Event.Calm)
    (hfails : x.Fails fun error => error.reports = []) : LogsLayers x := by
  intro w z hrun
  rw [failures_eq_nil.mpr (hemits hrun)]
  obtain ⟨error | a, events, w'⟩ := z
  · exact (hfails hrun).symm
  · rfl

/-- The same of an answer that is at hand. -/
theorem ofExcept {y : Except ExecutionError α} (h : ∀ error, y = .error error → error.IsCause) :
    LogsLayers (Process.ofExcept y) :=
  of_calm (.ofEffect (Emits.ofExcept y)) <|
    .ofEffect <| .ofExcept fun error herror => (ExecutionError.reports_of_isCause (h error herror))

/-- A part that gave a value has reported nothing, so the reports are those of what follows. -/
theorem bind {x : Course α} {f : α → Course β} (hx : LogsLayers x) (hf : ∀ a, LogsLayers (f a)) :
    LogsLayers (x >>= f) := by
  intro w z hrun
  obtain ⟨error, events, w', hrunx, rfl⟩ | ⟨a, first, mid, second, hrunx, hrunf, rfl⟩ :=
    Process.bind_eq_some.mp hrun
  · exact hx hrunx
  · -- The first part gave a value, so all that was reported is of the second.
    have hfirst : failures first = [] := hx hrunx
    rw [Run.after_events, failures_append, hfirst, hf a hrunf]
    rfl

/-- An evaluator that reports adds its report behind those of what failed in it. -/
theorem within {e : Evaluator} (he : e.Reports) {body : Course Outcome} (h : LogsLayers body) :
    LogsLayers (evaluateIn e body) := by
  intro w z hrun
  obtain ⟨outcome, events, w', hbody, rfl⟩ | ⟨error, events, w', hbody, rfl⟩ :=
    evaluateIn_eq_some.mp hrun
  · exact h hbody
  · have hbefore : failures events = error.reports := h hbody
    rw [failures_append, hbefore, failures_log_of_error he.2 rfl rfl]
    rfl

/-- So does a schema, and under fast exit it does not go on. -/
theorem step {e : Evaluator} (he : e.Reports) {x : Course Outcome} {f : Record → Course Outcome}
    (name : String) (index : Nat) (component : String) (register : Record) (hx : LogsLayers x)
    (hf : ∀ r, LogsLayers (f r)) : LogsLayers (afterStep e name index component register x f) := by
  intro w z hrun
  cases afterStep_eq_some.mp hrun with
  | completed hrunx hrunf =>
    have hbefore := hx hrunx
    simp only [reported] at hbefore
    rw [Run.after_events, failures_append, failures_append, hbefore, failures_log_of_calm _ rfl,
      hf _ hrunf]
    rfl
  | exited hrunx => exact hx hrunx
  | failed hrunx hfast =>
    have hbefore := hx hrunx
    simp only [reported] at hbefore
    rw [failures_append, hbefore, failures_log_of_error he.2 rfl rfl]
    rfl
  | skipped hrunx hfast => exact absurd he.1 (by rw [hfast]; exact Bool.false_ne_true)

/-- An error of a leaf is a cause, or in the layer of the leaf. -/
theorem leafLayers : LeafLayers (fun _ => True) fun error => error.reports = [] where
  cause _ h := ⟨trivial, ExecutionError.reports_of_isCause h⟩
  action _ := rfl
  executable _ := rfl

/-- A leaf adds no layer of these kinds, and reports no failure. -/
theorem leaf {c : Component} (hc : c.IsLeaf) (h : c.Reports) (rounds : Nat) (e : Evaluator)
    (register : Record) : LogsLayers (c.run rounds e register) := by
  refine of_calm (hc.emits_calm h rounds e register) (hc.fails leafLayers ?_ rounds e register)
  cases c with
  | action => exact fun _ _ _ => trivial
  | executable => exact fun _ _ _ _ _ => trivial
  | _ => trivial

theorem simulation (rounds : Nat) :
    Simulation rounds rounds (fun e e' => e.Reports ∧ e' = e) (fun x _ => LogsLayers x)
      (fun _ => Component.Reports) (fun _ => Predicate.Reports) where
  le := Nat.le_refl rounds
  endless _ := by intro w z hrun; cases hrun
  pure a := pure a
  list register key := ofExcept fun _ => listAt_error
  element item := ofExcept fun _ => Value.expectRecord_error
  bind := bind
  child name he := ⟨he.1, by rw [he.2]⟩
  emit message hlevel _ := by
    have hcalm : message.isFailure = false := by
      cases message with
      | stepFailed | stepSkipped | evaluationFailed => cases hlevel
      | _ => rfl
    exact of_calm (.ofEffect (emits_log _ message.level hcalm)) (.ofEffect (.emit _))
  within he h := within he.1 h
  step name index component register he hx hf := step he.1 name index component register hx hf
  leaf c register hc h _ := leaf hc h rounds _ register
  nested context body register h ih := within h (ih context ⟨h, rfl⟩)
  test check register h _ := of_calm (.ofEffect (h register _).1) (.ofEffect (h register _).2)
  fetch _ _ _ register identifiers _ _ :=
    of_calm (.ofEffect (Evaluator.getMemory_emits _ register identifiers ∅ false)) <|
      .ofEffect ((Evaluator.getMemory_fails _ register identifiers ∅ false).of_cause leafLayers)

end LogsLayers

/-! ## All layers of an error -/

/-- An error of a leaf's work in no layer of a schema or evaluator: the leaf adds none. -/
theorem allReports_leafLayers :
    LeafLayers (fun error => error.allReports = [])
      fun error => error.reports = error.allReports where
  cause error h := by
    cases error with
    | action | executable | schemaFailed | evaluator => cases h
    | missingKey | invalidQuery | invalidInput | validation | memory | other => exact ⟨rfl, rfl⟩
  action h := h.symm
  executable h := h.symm

theorem allReports_runLayers : RunLayers fun error => error.reports = error.allReports where
  schema h := by rw [ExecutionError.reports, ExecutionError.allReports, h]
  evaluator h := by rw [ExecutionError.reports, ExecutionError.allReports, h]

theorem ExecutionError.reports_of_allReports {error : ExecutionError} (h : error.allReports = []) :
    error.reports = error.allReports := by
  cases error <;> simp_all [ExecutionError.reports, ExecutionError.allReports]

/-- Under fast exit, the failures that a run reports are the schema and evaluator layers of
its error, innermost first, each with the names, the step and the error inside that layer;
a run that gave a value reported no failure.  The layers are those up to the layer of a
leaf, and so all of them when the work of leaves fails with errors in no such layer. -/
theorem failures_mirror_layers {c : Component} {e : Evaluator} (he : e.Reports)
    (hc : c.Every Component.Reports Predicate.Reports) {rounds : Nat} {register : Record}
    {w : World} {z : Run World ExecutionError Outcome}
    (hrun : c.evaluate rounds e register w = some z) :
    match z.result with
    | .ok _ => failures z.events = []
    | .error error =>
      failures z.events = error.reports ∧
        (c.Every (Component.WorkFails fun error => error.allReports = [])
          (Predicate.TestFails fun error => error.allReports = []) →
            failures z.events = error.allReports) := by
  have hlogs : LogsLayers (c.evaluate rounds e register) :=
    LogsLayers.within he ((LogsLayers.simulation rounds).run c hc ⟨he, rfl⟩ register)
  have hfailures := hlogs hrun
  obtain ⟨error | outcome, events, w'⟩ := z
  · refine ⟨hfailures, fun hwork => ?_⟩
    have hlayers : (c.evaluate rounds e register).Fails fun error =>
        error.reports = error.allReports := by
      refine evaluateIn_fails allReports_runLayers e ?_
      exact c.fails allReports_leafLayers allReports_runLayers
        (fun _ => ExecutionError.reports_of_allReports) hwork rounds e register
    exact hfailures.trans (hlayers hrun)
  · exact hfailures

/-- Renaming fails with a cause. -/
theorem Action.rename_error {names : Rename} {v : Value} {error : ExecutionError}
    (h : (Action.rename names).execute v = .error error) : error.IsCause := by
  cases v with
  | mapping r =>
    change (Action.applyRename r names >>= fun r => .ok (Output.mapping r)) = .error error at h
    unfold Action.applyRename at h
    cases hget : r.get? names.old with
    | none => rw [hget] at h; cases h; trivial
    | some v => rw [hget] at h; cases h
  | null | bool | number | string | list => cases h; trivial

/-- A rename fails in the body of a loop, in a nested evaluator, after a step that logs. -/
def nestedFailure : Component :=
  .schema "Outer"
    [.log "Log" (.make .info),
     .evaluator (.make "Nested" .error true 1)
      (.loop "Loop"
        (.schema "Inner" [.action "Rename" (.root "output" .local) (.rename ⟨"a", "b"⟩)])
        (some (.condition "Check" (.test fun r _ => pure r.isEmpty) (.exit "Break") none)) none)]

/-- The error of that run: three evaluators, two schemas and an action. -/
def nestedFailureError : ExecutionError :=
  .evaluator "Root" <| .schemaFailed "Outer" 1 "Nested" <| .evaluator "Nested" <|
    .evaluator "Nested.Loop" <| .schemaFailed "Inner" 0 "Rename" <|
      .action "Rename" (.missingKey "a")

theorem nestedFailure_mirrors_layers :
    Evaluator.Reports (.make "Root" .warn true 0) ∧
    nestedFailure.Every Component.Reports Predicate.Reports ∧
    nestedFailure.Every (Component.WorkFails fun error => error.allReports = [])
      (Predicate.TestFails fun error => error.allReports = []) ∧
    ∃ events w',
      nestedFailure.evaluate 1 (.make "Root" .warn true 0) ∅ World.empty =
        some ⟨.error nestedFailureError, events, w'⟩ ∧
      failures events = nestedFailureError.allReports ∧
      nestedFailureError.allReports.length = 5 := by
  have hroot : Evaluator.Reports (.make "Root" .warn true 0) := ⟨rfl, by decide⟩
  have hnested : Evaluator.Reports (.make "Nested" .error true 1) := ⟨rfl, by decide⟩
  have htree : nestedFailure.Every Component.Reports Predicate.Reports := by
    refine ⟨trivial, trivial, ⟨hnested, trivial, ⟨trivial, trivial, trivial⟩, trivial, ?_, trivial⟩,
      trivial⟩
    exact fun _ _ => ⟨Emits.pure _, Effect.Fails.pure _⟩
  have hwork : nestedFailure.Every (Component.WorkFails fun error => error.allReports = [])
      (Predicate.TestFails fun error => error.allReports = []) := by
    refine ⟨trivial, trivial, ⟨trivial, trivial, ⟨trivial, ?_, trivial⟩, trivial, ?_, trivial⟩,
      trivial⟩
    · exact fun _ _ herror => (allReports_leafLayers.cause _ (Action.rename_error herror)).1
    · exact fun _ _ => Effect.Fails.pure _
  have hrun : nestedFailure.evaluate 1 (.make "Root" .warn true 0) ∅ World.empty =
      some ⟨.error nestedFailureError, _, _⟩ := rfl
  exact ⟨hroot, htree, hwork, _, _, hrun, (failures_mirror_layers hroot htree hrun).2 hwork, rfl⟩

/-- A test that reports a failed step, and holds. -/
def reportingFilter : Component := askingFilter fun e => do
  Effect.emit (e.logger.log (.stepFailed "Inner" 0 "Step" (.missingKey "k")))
  pure true

/-- A test that fails as a schema does. -/
def refusingFilter : Component :=
  askingFilter fun _ => throw (.schemaFailed "Inner" 0 "Step" (.missingKey "k"))

/-- It is not enough to ask this of leaves.  A test that reports a failure of its own does so in
a run that gives a value, and one that fails in a layer of a schema leaves that layer without a
report. -/
theorem mirroring_needs_tests :
    (¬ ∀ (c : Component) (e : Evaluator) (rounds : Nat) (register : Record) (w w' : World)
        (outcome : Outcome) (events : List Event), e.Reports →
        c.Every Component.Reports (fun _ => True) →
        c.Every (Component.WorkFails fun error => error.allReports = []) (fun _ => True) →
        c.evaluate rounds e register w = some ⟨.ok outcome, events, w'⟩ → failures events = []) ∧
    ¬ ∀ (c : Component) (e : Evaluator) (rounds : Nat) (register : Record) (w w' : World)
        (error : ExecutionError) (events : List Event), e.Reports →
        c.Every Component.Reports (fun _ => True) →
        c.Every (Component.WorkFails fun error => error.allReports = []) (fun _ => True) →
        c.evaluate rounds e register w = some ⟨.error error, events, w'⟩ →
          failures events = error.allReports := by
  have hroot : Evaluator.Reports (.make "Root" .warn true 0) := ⟨rfl, by decide⟩
  constructor
  · intro h
    have hrun : reportingFilter.evaluate 0 (.make "Root" .warn true 0) (listOf [∅]) World.empty =
        some ⟨.ok (.next (listOf [∅])),
          [⟨.error, "Root", .stepFailed "Inner" 0 "Step" (.missingKey "k")⟩], World.empty⟩ := rfl
    have hnone := h reportingFilter _ _ _ _ _ _ _ hroot ⟨trivial, trivial⟩ ⟨trivial, trivial⟩ hrun
    cases hnone
  · intro h
    have hrun : refusingFilter.evaluate 0 (.make "Root" .warn true 0) (listOf [∅]) World.empty =
        some ⟨.error (.evaluator "Root" (.schemaFailed "Inner" 0 "Step" (.missingKey "k"))),
          [⟨.error, "Root", .evaluationFailed "Root"
            (.schemaFailed "Inner" 0 "Step" (.missingKey "k"))⟩], World.empty⟩ := rfl
    have hboth := h refusingFilter _ _ _ _ _ _ _ hroot ⟨trivial, trivial⟩ ⟨trivial, trivial⟩ hrun
    have hlength := congrArg List.length hboth
    exact absurd hlength (by decide)

end Pipeline
