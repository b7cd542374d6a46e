import Pipeline.Proofs.Halting
import Pipeline.Proofs.Watch

/-!
# The threshold of a logger

The threshold of an evaluator's logger has no say in what a run does.  It decides only
which of the events that go through that logger, or the logger of a child, are emitted
(`threshold_filters_events`): one watched run gives the runs under all thresholds.

This needs that the units in the tree do not look at the threshold themselves, the tests as
well as the executables (`threshold_needs_tests`).
-/

namespace Pipeline

/-- The evaluator with another threshold. -/
def Evaluator.withThreshold (e : Evaluator) (threshold : Level) : Evaluator :=
  { e with logger := { e.logger with threshold := threshold } }

/-! ## Units that do not look at the threshold -/

/-- The executable does the same under any threshold. -/
def Executable.IgnoresThreshold (x : Executable) : Prop :=
  ∀ data e threshold, x.invoke data (e.withThreshold threshold) = x.invoke data e

/-- If the component is an executable, it does the same under any threshold. -/
def Component.UnitIgnoresThreshold : Component → Prop
  | .executable _ _ x => x.IgnoresThreshold
  | _ => True

/-- If the predicate is a test, it does the same under any threshold. -/
def Predicate.TestIgnoresThreshold : Predicate → Prop
  | .test check => ∀ register e threshold,
      check register (e.withThreshold threshold) = check register e
  | _ => True

/-- No executable and no test in the tree looks at the threshold. -/
def Component.IgnoresThreshold (c : Component) : Prop :=
  c.Every Component.UnitIgnoresThreshold Predicate.TestIgnoresThreshold

/-! ## Watched courses through a threshold -/

@[simp] theorem emitted_append (L : Level) (first second : List Sighting) :
    emitted L (first ++ second) = emitted L first ++ emitted L second := by
  simp [emitted]

/-- What did not go through the watched logger is emitted under every threshold. -/
theorem emitted_past (L : Level) (events : List Event) :
    emitted L (events.map (⟨false, ·⟩)) = events := by
  have hpasses : ∀ s ∈ events.map (⟨false, ·⟩ : Event → Sighting), s.passes L = true := by
    intro s hmem
    obtain ⟨event, _, rfl⟩ := List.mem_map.mp hmem
    rfl
  rw [emitted, List.filter_eq_self.mpr hpasses, List.map_map]
  exact List.map_id events

/-- What goes through the watched logger is emitted if the threshold lets it pass. -/
theorem emitted_own (L : Level) (e : Evaluator) (level : Level) (message : Message) :
    emitted L ((Logger.logAt ⟨e.logger.name, .trace⟩ level message).map (⟨true, ·⟩)) =
      (e.withThreshold L).logger.logAt level message := by
  cases level <;> cases L <;> rfl

namespace Watch

variable {α β : Type} (L : Level)

theorem through_pure (a : α) : (pure a : Watch α).through L = pure a := rfl

/-- A sequence through the threshold is the sequence of its parts through it. -/
theorem through_bind {x : Watch α} {f : α → Watch β} {y : Course α} {g : α → Course β}
    (hx : x.through L = y) (hf : ∀ a, (f a).through L = g a) :
    (x >>= f).through L = y >>= g := by
  funext w
  subst hx
  change (andThen x f w).map _ = _
  unfold andThen
  cases hx : x w with
  | none =>
    rw [Process.bind_of_none (by rw [through, hx]; rfl)]
    rfl
  | some z =>
    obtain ⟨error | a, sightings, w'⟩ := z
    · rw [Process.bind_of_error (by rw [through, hx]; rfl)]
      rfl
    · rw [Process.bind_of_ok (by rw [through, hx]; rfl), ← hf a]
      cases hrunf : f a w' with
      | none => simp [through, hrunf]
      | some second => simp [through, hrunf, Watched.through, Watched.after, Run.after]

/-- The same of a sequence of effects. -/
theorem through_act {x : Watch α} {f : α → Watch β} {y : Act α} {g : α → Act β}
    (hx : x.through L = Process.ofEffect y) (hf : ∀ a, (f a).through L = Process.ofEffect (g a)) :
    (x >>= f).through L = Process.ofEffect (y >>= g) := by
  rw [Process.ofEffect_bind]
  exact through_bind L hx hf

theorem through_past (x : Course α) : (past x).through L = x := by
  funext w
  unfold through past
  cases x w with
  | none => rfl
  | some z => simp [Watched.through, Watched.past, emitted_past]

/-- What goes through the watched logger is what the logger with the threshold lets pass. -/
theorem through_logAt (e : Evaluator) (level : Level) (message : Message) :
    (logAt e level message).through L =
      Process.emit ((e.withThreshold L).logger.logAt level message) := by
  funext w
  change some (⟨_, _, _⟩ : Run World ExecutionError Unit) = _
  rw [emitted_own]
  rfl

theorem through_log (e : Evaluator) (message : Message) :
    (log e message).through L = Process.emit ((e.withThreshold L).logger.log message) :=
  through_logAt L e message.level message

theorem through_attempt (x : Watch α) : x.attempt.through L = (x.through L).attempt := by
  funext w
  simp only [through, attempt, Process.attempt]
  cases x w <;> rfl

/-! ## Constructs -/

/-- The report of an error goes through the watched logger. -/
theorem through_within (e : Evaluator) {body : Watch Outcome} {body' : Course Outcome}
    (hbody : body.through L = body') :
    (within e body).through L = evaluateIn (e.withThreshold L) body' := by
  refine through_bind L (by rw [through_attempt, hbody]) fun result => ?_
  cases result with
  | ok outcome => rfl
  | error error => exact through_bind L (through_log L e _) fun _ => through_past L _

section

variable {body : Record → Watch Outcome} {condition : Record → Watch Bool}
  {body' : Record → Course Outcome} {condition' : Record → Course Bool}

/-- The rounds of a loop are seen through the threshold when its parts are. -/
theorem through_rounds (hbody : ∀ r, (body r).through L = body' r)
    (hcondition : ∀ r, (condition r).through L = condition' r) (bound : Option Nat) (k : Nat)
    (done : Nat) (register : Record) :
    (rounds body condition bound k done register).through L =
      runRounds body' condition' bound k done register := by
  induction k generalizing done register with
  | zero =>
    unfold rounds runRounds
    split
    · rfl
    · refine through_bind L (hcondition register) fun holds => ?_
      cases holds <;> rfl
  | succ k ih =>
    unfold rounds runRounds
    split
    · rfl
    · refine through_bind L (hcondition register) fun holds => ?_
      cases holds with
      | false => rfl
      | true =>
        refine through_bind L (hbody register) fun outcome => ?_
        cases outcome with
        | next r => exact ih (done + 1) r
        | exitLoop r => rfl

theorem through_each (hbody : ∀ r, (body r).through L = body' r) (items : List Value) :
    (each body items).through L = runEach body' items := by
  induction items with
  | nil => rfl
  | cons item rest ih =>
    refine through_bind L (through_past L _) fun record => ?_
    refine through_bind L (hbody record) fun outcome => ?_
    cases outcome with
    | exitLoop r => rfl
    | next result =>
      refine through_bind L ih fun results => ?_
      cases results <;> rfl

theorem through_keep (hcondition : ∀ r, (condition r).through L = condition' r)
    (items : List Value) : (keep condition items).through L = keepEach condition' items := by
  induction items with
  | nil => rfl
  | cons item rest ih =>
    refine through_bind L (through_past L _) fun record => ?_
    refine through_bind L (hcondition record) fun holds => ?_
    exact through_bind L ih fun kept => rfl

end

end Watch

/-! ## Components -/

section

open Watch

variable (L : Level)

mutual

/-- The run under a threshold is the watched run through it. -/
theorem Component.through_watch {c : Component}
    (h : c.Every Component.UnitIgnoresThreshold Predicate.TestIgnoresThreshold) (rounds : Nat)
    (e : Evaluator) (register : Record) :
    (c.watch rounds e register).through L = c.run rounds (e.withThreshold L) register := by
  match c with
  | .action name view a =>
    refine through_act L (through_past L _) fun data => ?_
    refine through_act L (through_past L _) fun output => ?_
    exact through_act L (through_log L e _) fun _ => rfl
  | .executable name view x =>
    have hx : x.IgnoresThreshold := h
    -- The unit is watched in the evaluator as it is, and runs in the one with the threshold.
    have hselected (data : Value) := congrArg Process.ofEffect
      (executeSelected_congr (fun data => hx data e L) name data)
    refine through_act L (through_past L _) fun data => ?_
    refine through_act L ((through_past L _).trans (hselected data).symm) fun output => ?_
    exact through_act L (through_log L e _) fun _ => rfl
  | .schema name steps => exact Component.through_watchSteps h.2 rounds name e 0 register
  | .loop name body condition bound =>
    have hbody (r : Record) :=
      through_within L (e.child name) (Component.through_watch h.2.1 rounds (e.child name) r)
    have hcondition (r : Record) := Predicate.through_watchOption h.2.2 rounds e r
    refine through_bind L (through_rounds L hbody hcondition bound rounds 0 register) fun _ => ?_
    exact through_bind L (through_log L e _) fun _ => rfl
  | .forEach name body getKey setKey =>
    have hbody (r : Record) :=
      through_within L (e.child name) (Component.through_watch h.2 rounds (e.child name) r)
    refine through_bind L (through_past L _) fun items => ?_
    refine through_bind L (through_each L hbody items) fun results => ?_
    cases results <;> rfl
  | .filter _ condition getKey setKey =>
    refine through_bind L (through_past L _) fun items => ?_
    have hcondition (r : Record) := Predicate.through_watch h.2 rounds e r
    exact through_bind L (through_keep L hcondition items) fun kept => rfl
  | .switch name branches => exact Branch.through_watchAll h.2 rounds name e 0 register
  | .exit _ => rfl
  | .log _ ⟨level, none, message, opening, closing, includeInput⟩ =>
    exact through_act L (through_logAt L e _ _) fun _ => through_pure L (Outcome.next register)
  | .log _ ⟨level, some logger, message, opening, closing, includeInput⟩ =>
    exact through_act L (through_past L _) fun _ => through_pure L (Outcome.next register)
  | .setMemory .. => exact through_past L _
  | .getMemory .. => exact through_past L _
  | .deleteMemory .. => exact through_past L _
  | .evaluator context body => exact through_past L _

/-- The steps of a schema report through the watched logger. -/
theorem Component.through_watchSteps {steps : List Component}
    (h : Component.EveryStep Component.UnitIgnoresThreshold Predicate.TestIgnoresThreshold steps)
    (rounds : Nat) (name : String) (e : Evaluator) (index : Nat) (register : Record) :
    (Component.watchSteps rounds name steps e index register).through L =
      runSteps rounds name steps (e.withThreshold L) index register := by
  match steps with
  | [] => rfl
  | step :: rest =>
    have hstep : (step.watch rounds e register).attempt.through L =
        (step.run rounds (e.withThreshold L) register).attempt := by
      rw [through_attempt, Component.through_watch h.1]
    refine through_bind L hstep fun result => ?_
    match result with
    | .ok (.next r) =>
      refine through_bind L (through_log L e _) fun _ => ?_
      exact Component.through_watchSteps h.2 rounds name e (index + 1) r
    | .ok (.exitLoop r) => rfl
    | .error error =>
      refine through_bind L (through_log L e _) fun _ => ?_
      change Watch.through L (if e.fastExit then _ else _) = (if e.fastExit then _ else _)
      cases e.fastExit with
      | true => exact through_past L _
      | false =>
        refine through_bind L (through_log L e _) fun _ => ?_
        exact Component.through_watchSteps h.2 rounds name e (index + 1) register

/-- So do the branches of a switch. -/
theorem Branch.through_watchAll {branches : List Branch}
    (h : Branch.EveryOf Component.UnitIgnoresThreshold Predicate.TestIgnoresThreshold branches)
    (rounds : Nat) (name : String) (e : Evaluator) (index : Nat) (register : Record) :
    (Branch.watchAll rounds name branches e index register).through L =
      runBranches rounds name branches (e.withThreshold L) index register := by
  match branches with
  | [] => rfl
  | branch :: rest =>
    refine through_bind L (Branch.through_watch h.1 rounds e register) fun outcome => ?_
    match outcome with
    | .skipped r => exact Branch.through_watchAll h.2 rounds name e (index + 1) r
    | .taken (.exitLoop r) => rfl
    | .taken (.next r) =>
      refine through_bind L (through_log L e _) fun _ => ?_
      split
      · rfl
      · exact Branch.through_watchAll h.2 rounds name e (index + 1) r

theorem Branch.through_watch {branch : Branch}
    (h : branch.Every Component.UnitIgnoresThreshold Predicate.TestIgnoresThreshold)
    (rounds : Nat) (e : Evaluator) (register : Record) :
    (branch.watch rounds e register).through L =
      branch.offer rounds (e.withThreshold L) register := by
  match branch with
  | .mk name condition body _ =>
    refine through_bind L (Predicate.through_watchOption h.1 rounds e register) fun holds => ?_
    cases holds with
    | false => rfl
    | true =>
      have hbody := Component.through_watch h.2 rounds (e.child name) register
      exact through_bind L (through_within L (e.child name) hbody) fun outcome => rfl

theorem Predicate.through_watchOption {condition : Option Predicate}
    (h : Predicate.EveryOption Component.UnitIgnoresThreshold Predicate.TestIgnoresThreshold
      condition) (rounds : Nat) (e : Evaluator) (register : Record) :
    (Predicate.watchOption rounds condition e register).through L =
      holds rounds condition (e.withThreshold L) register := by
  match condition with
  | none => rfl
  | some p => exact Predicate.through_watch h rounds e register

/-- A test is watched in the evaluator as it is, and does not look at the threshold. -/
theorem Predicate.through_watch {p : Predicate}
    (h : p.Every Component.UnitIgnoresThreshold Predicate.TestIgnoresThreshold) (rounds : Nat)
    (e : Evaluator) (register : Record) :
    (p.watch rounds e register).through L = p.check rounds (e.withThreshold L) register := by
  match p with
  | .test check =>
    have htest : check register (e.withThreshold L) = check register e := h register e L
    change (past _).through L = Process.ofEffect (check register (e.withThreshold L))
    rw [through_past, htest]
  | .not p =>
    exact through_bind L (Predicate.through_watch h.2 rounds e register) fun b => rfl
  | .all ps => exact Predicate.through_watchAll h.2 rounds e register
  | .condition name validator body state =>
    have hbody (r : Record) :=
      through_within L (e.child name) (Component.through_watch h.2.2 rounds (e.child name) r)
    have hvalidator (outcome : Outcome) :=
      Predicate.through_watch h.2.1 rounds e outcome.register
    cases state with
    | none => exact through_bind L rfl fun r => through_bind L (hbody r) hvalidator
    | some identifiers =>
      exact through_bind L (through_past L _) fun r => through_bind L (hbody r) hvalidator

theorem Predicate.through_watchAll {ps : List Predicate}
    (h : Predicate.EveryOf Component.UnitIgnoresThreshold Predicate.TestIgnoresThreshold ps)
    (rounds : Nat) (e : Evaluator) (register : Record) :
    (Predicate.watchAll rounds ps e register).through L =
      checkAll rounds ps (e.withThreshold L) register := by
  match ps with
  | [] => rfl
  | p :: rest =>
    refine through_bind L (Predicate.through_watch h.1 rounds e register) fun holds => ?_
    cases holds with
    | false => rfl
    | true => exact Predicate.through_watchAll h.2 rounds e register

end

end

/-! ## One watched run for all thresholds -/

end Pipeline
