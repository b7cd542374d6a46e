import Pipeline.Proofs.Halting

/-!
# Where the loop signal can come from

A break is *exposed* when nothing between it and the root of the tree takes its signal:
schemas, branches, bodies for elements and nested evaluators hand it on.  A loop takes
the signals of its body, and a condition those of its component.

A component gives the signal only if it exposes a break (`run_gives_signal`), and a
loop is ended by the signal only if its body exposes one (`loopRounds_gives`).  So a
loop never gives the signal, and a break in a condition ends no loop around it.
-/

namespace Pipeline

/-- A break is in the tree, and every construct on the way to it hands its signal on. -/
inductive Component.ExposesBreak : Component → Prop
  | exit (name : String) : ExposesBreak (.exit name)
  | step {name : String} {steps : List Component} {step : Component} (mem : step ∈ steps)
    (exposed : step.ExposesBreak) : ExposesBreak (.schema name steps)
  | branch {name : String} {branches : List Branch} {branch : Branch} (mem : branch ∈ branches)
    (exposed : branch.body.ExposesBreak) : ExposesBreak (.switch name branches)
  | element {name getKey setKey : String} {body : Component} (exposed : body.ExposesBreak) :
    ExposesBreak (.forEach name body getKey setKey)
  | nested {context : Evaluator} {body : Component} (exposed : body.ExposesBreak) :
    ExposesBreak (.evaluator context body)

/-- An outcome is the loop signal only if `P` holds. -/
def SignalOnlyIf (P : Prop) (outcome : Outcome) : Prop := ∀ r, outcome = .exitLoop r → P

theorem SignalOnlyIf.next {P : Prop} (r : Record) : SignalOnlyIf P (.next r) := by
  intro _ h
  cases h

theorem SignalOnlyIf.of {P : Prop} (h : P) (outcome : Outcome) : SignalOnlyIf P outcome :=
  fun _ _ => h

theorem SignalOnlyIf.mono {P P' : Prop} (h : P → P') (outcome : Outcome)
    (hs : SignalOnlyIf P outcome) : SignalOnlyIf P' outcome :=
  fun r hr => h (hs r hr)

open Process (Gives)

/-! ## Leaves -/

/-- A leaf that is no break gives no signal. -/
theorem Component.IsLeaf.gives_signal {c : Component} (h : c.IsLeaf) (rounds : Nat)
    (e : Evaluator) (register : Record) :
    Gives (c.run rounds e register) (SignalOnlyIf c.ExposesBreak) := by
  cases c with
  | action name view a =>
    refine Gives.ofEffect_bind_last fun data => ?_
    refine Gives.ofEffect_bind_last fun output => ?_
    refine Gives.ofEffect_bind_last fun _ => ?_
    exact Gives.pure (SignalOnlyIf.next _)
  | executable name view x =>
    refine Gives.ofEffect_bind_last fun data => ?_
    refine Gives.ofEffect_bind_last fun ⟨output, items⟩ => ?_
    refine Gives.ofEffect_bind_last fun _ => ?_
    exact Gives.pure (SignalOnlyIf.next _)
  | exit name => exact Gives.pure (SignalOnlyIf.of (.exit name) _)
  | log name spec =>
    change Gives (Process.ofEffect (runLog spec e register)) _
    unfold runLog
    cases spec.logger with
    | none =>
      refine Gives.ofEffect_bind_last fun _ => ?_
      exact Gives.pure (SignalOnlyIf.next _)
    | some logger =>
      refine Gives.ofEffect_bind_last fun _ => ?_
      exact Gives.pure (SignalOnlyIf.next _)
  | setMemory name key getKey instruction =>
    refine Gives.ofEffect_bind_last fun _ => ?_
    cases instruction with
    | set => exact Gives.pure (SignalOnlyIf.next _)
    | move =>
      cases getKey with
      | none => exact Gives.pure (SignalOnlyIf.next _)
      | some k => exact Gives.pure (SignalOnlyIf.next _)
  | getMemory name identifiers default instruction =>
    refine Gives.ofEffect_bind_last fun r => ?_
    exact Gives.pure (SignalOnlyIf.next _)
  | deleteMemory name keys =>
    change Gives (Process.ofEffect (runDeleteMemory keys e register)) _
    unfold runDeleteMemory
    split
    · refine Gives.ofEffect_bind_last fun _ => ?_
      exact Gives.pure (SignalOnlyIf.next _)
    · refine Gives.ofEffect_bind_last fun _ => ?_
      exact Gives.pure (SignalOnlyIf.next _)
  | schema | loop | forEach | filter | switch | evaluator => cases h

/-! ## Constructs -/

theorem gives_within {P : Outcome → Prop} (e : Evaluator) {body : Course Outcome}
    (h : Gives body P) : Gives (evaluateIn e body) P :=
  fun _ _ _ _ hrun => h (evaluateIn_eq_ok.mp hrun)

/-- A schema hands on the signals of its steps and adds none. -/
theorem gives_afterStep {P : Prop} (e : Evaluator) (name : String) (index : Nat)
    (component : String) (register : Record) {step : Course Outcome}
    {next : Record → Course Outcome} (hstep : Gives step (SignalOnlyIf P))
    (hnext : ∀ r, Gives (next r) (SignalOnlyIf P)) :
    Gives (afterStep e name index component register step next) (SignalOnlyIf P) := by
  intro w outcome events w' hrun
  rw [afterStep_apply] at hrun
  rcases hend : step w with _ | ⟨error | (r | r), before, mid⟩
  · rw [hend] at hrun
    cases hrun
  · rw [hend] at hrun
    change (if e.fastExit then _ else _) = _ at hrun
    by_cases hfast : e.fastExit = true
    · rw [if_pos hfast] at hrun
      cases hrun
    · rw [if_neg hfast] at hrun
      obtain ⟨⟨result, after, last⟩, hn, hz⟩ := Option.map_eq_some_iff.mp hrun
      cases hz
      exact hnext register hn
  · rw [hend] at hrun
    obtain ⟨⟨result, after, last⟩, hn, hz⟩ := Option.map_eq_some_iff.mp hrun
    cases hz
    exact hnext r hn
  · rw [hend] at hrun
    cases hrun
    exact hstep hend

/-- Rounds are ended by the signal only if the body gives it. -/
theorem gives_runRounds {P : Prop} {body : Record → Course Outcome}
    (hbody : ∀ r, Gives (body r) (SignalOnlyIf P)) (condition : Record → Course Bool)
    (bound : Option Nat) (rounds done : Nat) (register : Record) :
    Gives (runRounds body condition bound rounds done register)
      (fun finish => finish.exited = true → P) := by
  induction rounds generalizing done register with
  | zero =>
    unfold runRounds
    split
    · exact Gives.pure fun h => Bool.noConfusion h
    · refine Gives.bind_last fun holds => ?_
      split
      · exact Gives.pure fun h => Bool.noConfusion h
      · exact Gives.endless
  | succ rounds ih =>
    unfold runRounds
    split
    · exact Gives.pure fun h => Bool.noConfusion h
    · refine Gives.bind_last fun holds => ?_
      split
      · exact Gives.pure fun h => Bool.noConfusion h
      · refine Gives.bind (hbody register) fun outcome hsignal => ?_
        cases outcome with
        | next r => exact ih (done + 1) r
        | exitLoop r => exact Gives.pure fun _ => hsignal r rfl

/-- The elements of a list are left early only if a body gives the signal. -/
theorem gives_runEach {P : Prop} {body : Record → Course Outcome}
    (hbody : ∀ r, Gives (body r) (SignalOnlyIf P)) (items : List Value) :
    Gives (runEach body items) (fun results => results = none → P) := by
  induction items with
  | nil => exact Gives.pure nofun
  | cons item rest ih =>
    refine Gives.bind_last fun record => ?_
    refine Gives.bind (hbody record) fun outcome hsignal => ?_
    cases outcome with
    | exitLoop r => exact Gives.pure fun _ => hsignal r rfl
    | next result =>
      refine Gives.bind ih fun results hnone => ?_
      cases results with
      | none => exact Gives.pure fun _ => hnone rfl
      | some results => exact Gives.pure nofun

/-! ## Trees -/

/-- What a branch may do, given what the signal of its body shows. -/
def BranchSignalOnlyIf (P : Prop) : BranchOutcome → Prop
  | .taken outcome => SignalOnlyIf P outcome
  | .skipped _ => True

mutual

/-- A component gives the signal only if it exposes a break. -/
theorem run_gives_signal (rounds : Nat) (c : Component) (e : Evaluator) (register : Record) :
    Gives (c.run rounds e register) (SignalOnlyIf c.ExposesBreak) := by
  match c with
  | .schema name steps =>
    refine (runSteps_gives_signal rounds steps name e 0 register).mono ?_
    exact SignalOnlyIf.mono fun ⟨_, mem, exposed⟩ => .step mem exposed
  | .loop .. =>
    rw [run_loop]
    refine Gives.bind_last fun finish => Gives.bind_last fun _ => ?_
    exact Gives.pure (SignalOnlyIf.next _)
  | .forEach name body _ _ =>
    have hbody (r : Record) :=
      gives_within (e.child name) (run_gives_signal rounds body (e.child name) r)
    refine Gives.bind_last fun items => ?_
    refine Gives.bind (gives_runEach hbody items) fun results hnone => ?_
    cases results with
    | none => exact Gives.pure (SignalOnlyIf.of (.element (hnone rfl)) _)
    | some results => exact Gives.pure (SignalOnlyIf.next _)
  | .filter .. =>
    refine Gives.bind_last fun items => Gives.bind_last fun kept => ?_
    exact Gives.pure (SignalOnlyIf.next _)
  | .switch name branches =>
    refine (runBranches_gives_signal rounds branches name e 0 register).mono ?_
    exact SignalOnlyIf.mono fun ⟨_, mem, exposed⟩ => .branch mem exposed
  | .evaluator context body =>
    refine (gives_within context (run_gives_signal rounds body context register)).mono ?_
    exact SignalOnlyIf.mono .nested
  | .action .. | .executable .. | .exit _ | .log .. | .setMemory .. | .getMemory ..
  | .deleteMemory .. =>
    refine Component.IsLeaf.gives_signal ?_ rounds e register
    exact True.intro

/-- Steps give the signal only if one of them exposes a break. -/
theorem runSteps_gives_signal (rounds : Nat) (steps : List Component) (name : String)
    (e : Evaluator) (index : Nat) (register : Record) :
    Gives (runSteps rounds name steps e index register)
      (SignalOnlyIf (∃ step ∈ steps, step.ExposesBreak)) := by
  match steps with
  | [] => exact Gives.pure (SignalOnlyIf.next _)
  | step :: rest =>
    rw [runSteps_cons]
    refine gives_afterStep e name index step.name register ?_ fun r => ?_
    · refine (run_gives_signal rounds step e register).mono ?_
      exact SignalOnlyIf.mono fun exposed => ⟨step, .head _, exposed⟩
    · refine (runSteps_gives_signal rounds rest name e (index + 1) r).mono ?_
      exact SignalOnlyIf.mono fun ⟨other, mem, exposed⟩ => ⟨other, .tail _ mem, exposed⟩

/-- Branches give the signal only if the body of one exposes a break. -/
theorem runBranches_gives_signal (rounds : Nat) (branches : List Branch) (name : String)
    (e : Evaluator) (index : Nat) (register : Record) :
    Gives (runBranches rounds name branches e index register)
      (SignalOnlyIf (∃ branch ∈ branches, branch.body.ExposesBreak)) := by
  match branches with
  | [] => exact Gives.pure (SignalOnlyIf.next _)
  | branch :: rest =>
    have hrest (r : Record) :
        Gives (runBranches rounds name rest e (index + 1) r)
          (SignalOnlyIf (∃ other ∈ branch :: rest, other.body.ExposesBreak)) := by
      refine (runBranches_gives_signal rounds rest name e (index + 1) r).mono ?_
      exact SignalOnlyIf.mono fun ⟨other, mem, exposed⟩ => ⟨other, .tail _ mem, exposed⟩
    refine Gives.bind (offer_gives_signal rounds branch e register) fun outcome hsignal => ?_
    match outcome with
    | .skipped r => exact hrest r
    | .taken (.exitLoop r) =>
      exact Gives.pure (SignalOnlyIf.of ⟨branch, .head _, hsignal r rfl⟩ _)
    | .taken (.next r) =>
      refine Gives.bind_last fun _ => ?_
      split
      · exact Gives.pure (SignalOnlyIf.next _)
      · exact hrest r

/-- A branch gives the signal only if its body exposes a break. -/
theorem offer_gives_signal (rounds : Nat) (branch : Branch) (e : Evaluator) (register : Record) :
    Gives (branch.offer rounds e register) (BranchSignalOnlyIf branch.body.ExposesBreak) := by
  match branch with
  | .mk name condition body _ =>
    refine Gives.bind_last fun holds => ?_
    split
    · have hbody :=
        gives_within (e.child name) (run_gives_signal rounds body (e.child name) register)
      exact Gives.bind hbody fun outcome hsignal => Gives.pure hsignal
    · exact Gives.pure trivial

end

/-- A loop is ended by the signal only if its body exposes a break. -/
theorem loopRounds_gives (rounds : Nat) (name : String) (body : Component)
    (condition : Option Predicate) (bound : Option Nat) (e : Evaluator) (register : Record) :
    Gives (loopRounds rounds name body condition bound e register)
      (fun finish => finish.exited = true → body.ExposesBreak) := by
  have hbody (r : Record) :=
    gives_within (e.child name) (run_gives_signal rounds body (e.child name) r)
  exact gives_runRounds hbody _ bound rounds 0 register

/-- The loop signal leaves a tree only through an exposed break.  A loop never gives the
signal, and only an exposed break of its body ends it, whatever the breaks in the
conditions of the loop and of its body. -/
theorem signal_needs_exposed_break :
    (∀ (c : Component) e register w r w',
      c.Ends e register w (.ok (.exitLoop r)) w' → c.ExposesBreak) ∧
    (∀ name body condition bound e register w outcome w',
      (Component.loop name body condition bound).Ends e register w (.ok outcome) w' →
        ∃ r, outcome = .next r) ∧
    ∀ rounds name body condition bound e register w finish events w',
      loopRounds rounds name body condition bound e register w =
        some ⟨.ok finish, events, w'⟩ → finish.exited = true → body.ExposesBreak := by
  refine ⟨?_, ?_, ?_⟩
  · intro c e register w r w' h
    obtain ⟨events, rounds, hrun⟩ := h
    exact run_gives_signal rounds c e register hrun r rfl
  · intro name body condition bound e register w outcome w' h
    obtain ⟨events, rounds, hrun⟩ := h
    cases outcome with
    | next r => exact ⟨r, rfl⟩
    | exitLoop r =>
      have hexposed := run_gives_signal rounds _ e register hrun r rfl
      cases hexposed
  · intro rounds name body condition bound e register w finish events w' hrun
    exact loopRounds_gives rounds name body condition bound e register hrun

/-- A break on the elements of a list, in an evaluator of its own. -/
def exposedBreak : Component :=
  .schema "Outer"
    [.forEach "Each" (.evaluator (.make "Nested" .off true 1) (.exit "Break")) "xs" "xs"]

/-- A register with one element to go over. -/
def oneElement : Record := (∅ : Record).insert "xs" (.list [.mapping ∅])

/-- A condition that runs a break and holds of every register. -/
def breakingCondition : Predicate :=
  .condition "Check" (.test fun _ _ => pure true) (.exit "Break") none

theorem exposedBreak_needs_exposed_break :
    (exposedBreak.Ends (.make "Root" .off true 0) oneElement World.empty
        (.ok (.exitLoop oneElement)) World.empty ∧ exposedBreak.ExposesBreak) ∧
    ((Component.loop "Loop" exposedBreak (some breakingCondition) none).Ends
        (.make "Root" .off true 0) oneElement World.empty (.ok (.next oneElement)) World.empty ∧
      ∃ r, Outcome.next oneElement = .next r) ∧
    loopRounds 1 "Loop" exposedBreak (some breakingCondition) none (.make "Root" .off true 0)
        oneElement World.empty = some ⟨.ok ⟨oneElement, 0, true⟩, [], World.empty⟩ ∧
      exposedBreak.ExposesBreak := by
  obtain ⟨tree, loop, rounds⟩ := signal_needs_exposed_break
  have htree : exposedBreak.Ends (.make "Root" .off true 0) oneElement World.empty
      (.ok (.exitLoop oneElement)) World.empty := ⟨_, 0, rfl⟩
  have hloop : (Component.loop "Loop" exposedBreak (some breakingCondition) none).Ends
      (.make "Root" .off true 0) oneElement World.empty (.ok (.next oneElement)) World.empty :=
    ⟨_, 1, rfl⟩
  have hrounds : loopRounds 1 "Loop" exposedBreak (some breakingCondition) none
      (.make "Root" .off true 0) oneElement World.empty =
        some ⟨.ok ⟨oneElement, 0, true⟩, [], World.empty⟩ := rfl
  exact ⟨⟨htree, tree _ _ _ _ _ _ htree⟩, ⟨hloop, loop _ _ _ _ _ _ _ _ _ hloop⟩, hrounds,
    rounds _ _ _ _ _ _ _ _ _ _ _ hrounds rfl⟩

end Pipeline
