import Pipeline.Proofs.Halting
import Pipeline.Proofs.Recording

/-!
# Trees with bounded loops

Only a loop can go on for ever.  A tree whose loops all have a bound always ends, with an
outcome or an error, and the largest of its bounds is enough rounds for every run of it,
whatever the register, the evaluator and the world are (`Component.total_of_loopsBounded`).
How often a body runs in the end depends on the lists that the tree meets on its way; how
often one call of one loop goes round does not.

`countedRounds` counts what one call of a loop does: a loop with a bound checks its
condition and runs its body that often at most.
-/

namespace Pipeline

/-! ## Processes that always end -/

/-- The process gives an answer from every state. -/
def Process.Total {σ ε α : Type} (x : Process σ ε α) : Prop := ∀ s, ∃ z, x s = some z

namespace Process.Total

variable {σ ε α β : Type}

/-- An effect always ends. -/
theorem ofEffect (x : Effect σ ε α) : Total (Process.ofEffect x) := fun s => ⟨x s, rfl⟩

theorem pure (a : α) : Total (Pure.pure a : Process σ ε α) :=
  fun s => ⟨⟨.ok a, [], s⟩, rfl⟩

/-- A whole always ends when its parts do. -/
theorem bind {x : Process σ ε α} {f : α → Process σ ε β} (hx : Total x)
    (hf : ∀ a, Total (f a)) : Total (x >>= f) := by
  intro s
  obtain ⟨⟨error | a, events, s'⟩, hrun⟩ := hx s
  · exact ⟨_, bind_of_error hrun⟩
  · obtain ⟨z, hz⟩ := hf a s'
    exact ⟨z.after events, by rw [bind_of_ok hrun, hz]; rfl⟩

theorem within (e : Evaluator) {x : Course Outcome} (hx : Total x) :
    Total (evaluateIn e x) := by
  intro w
  obtain ⟨⟨error | outcome, events, w'⟩, hrun⟩ := hx w
  · exact ⟨_, evaluateIn_eq_some.mpr (.inr ⟨error, events, w', hrun, rfl⟩)⟩
  · exact ⟨_, evaluateIn_eq_some.mpr (.inl ⟨outcome, events, w', hrun, rfl⟩)⟩

/-- A step that ends lets the schema end, if what runs after it does. -/
theorem step (e : Evaluator) (name : String) (index : Nat) (component : String)
    (register : Record) {x : Course Outcome} {f : Record → Course Outcome} (hx : Total x)
    (hf : ∀ r, Total (f r)) : Total (afterStep e name index component register x f) := by
  intro w
  obtain ⟨⟨error | (r | r), events, w'⟩, hrun⟩ := hx w
  · cases hfast : e.fastExit with
    | true => exact ⟨_, afterStep_eq_some.mpr (.failed hrun hfast)⟩
    | false =>
      obtain ⟨rest, hrest⟩ := hf register w'
      exact ⟨_, afterStep_eq_some.mpr (.skipped hrun hfast hrest)⟩
  · obtain ⟨rest, hrest⟩ := hf r w'
    exact ⟨_, afterStep_eq_some.mpr (.completed hrun hrest)⟩
  · exact ⟨_, afterStep_eq_some.mpr (.exited hrun)⟩

/-- The rounds that are left reach the bound, so the loop stops before they are used up. -/
theorem rounds {body : Record → Course Outcome} {condition : Record → Course Bool}
    (hbody : ∀ r, Total (body r)) (hcondition : ∀ r, Total (condition r)) {k n done : Nat}
    (h : k ≤ done + n) (register : Record) :
    Total (runRounds body condition (some k) n done register) := by
  induction n generalizing done register with
  | zero =>
    have hreached : (some k).any (· ≤ done) = true := by simpa using h
    unfold runRounds
    rw [if_pos hreached]
    exact pure _
  | succ n ih =>
    unfold runRounds
    split
    · exact pure _
    · refine bind (hcondition register) fun holds => ?_
      split
      · exact pure _
      · refine bind (hbody register) fun outcome => ?_
        cases outcome with
        | next r => exact ih (by omega) r
        | exitLoop r => exact pure _

/-- A list has so many elements, and the body ends on each. -/
theorem each {body : Record → Course Outcome} (hbody : ∀ r, Total (body r))
    (items : List Value) : Total (runEach body items) := by
  induction items with
  | nil => exact pure _
  | cons item rest ih =>
    refine bind (ofEffect _) fun record => bind (hbody record) fun outcome => ?_
    cases outcome with
    | exitLoop r => exact pure _
    | next result =>
      refine bind ih fun results => ?_
      cases results with
      | none => exact pure _
      | some results => exact pure _

theorem kept {test : Record → Course Bool} (htest : ∀ r, Total (test r))
    (items : List Value) : Total (keepEach test items) := by
  induction items with
  | nil => exact pure _
  | cons item rest ih =>
    refine bind (ofEffect _) fun record => bind (htest record) fun keep => ?_
    exact bind ih fun kept => pure _

end Process.Total

/-! ## The largest bound -/

/-- If the component is a loop, it has a bound. -/
def Component.IfLoopBounded : Component → Prop
  | .loop _ _ _ bound => bound.isSome = true
  | _ => True

/-- Every loop in the tree has a bound. -/
def Component.LoopsBounded (c : Component) : Prop :=
  c.Every Component.IfLoopBounded fun _ => True

mutual

/-- The largest bound of a loop in the tree. -/
def Component.largestBound : Component → Nat
  | .schema _ steps => Component.largestStepBound steps
  | .loop _ body condition bound =>
    max (bound.getD 0) (max body.largestBound (Predicate.largestOptionBound condition))
  | .forEach _ body _ _ => body.largestBound
  | .filter _ condition _ _ => condition.largestBound
  | .switch _ branches => Branch.largestBoundOf branches
  | .evaluator _ body => body.largestBound
  | .action .. | .executable .. | .exit _ | .log .. | .setMemory .. | .getMemory ..
  | .deleteMemory .. => 0

/-- The same for the steps in a list. -/
def Component.largestStepBound : List Component → Nat
  | [] => 0
  | step :: rest => max step.largestBound (Component.largestStepBound rest)

/-- The same for the branches in a list. -/
def Branch.largestBoundOf : List Branch → Nat
  | [] => 0
  | branch :: rest => max branch.largestBound (Branch.largestBoundOf rest)

/-- The same for a branch. -/
def Branch.largestBound : Branch → Nat
  | .mk _ condition body _ => max (Predicate.largestOptionBound condition) body.largestBound

/-- The same for a condition, if there is one. -/
def Predicate.largestOptionBound : Option Predicate → Nat
  | none => 0
  | some p => p.largestBound

/-- The same for a predicate. -/
def Predicate.largestBound : Predicate → Nat
  | .test _ => 0
  | .not p => p.largestBound
  | .all ps => Predicate.largestBoundOf ps
  | .condition _ validator body _ => max validator.largestBound body.largestBound

/-- The same for the predicates in a list. -/
def Predicate.largestBoundOf : List Predicate → Nat
  | [] => 0
  | p :: rest => max p.largestBound (Predicate.largestBoundOf rest)

end

/-! ## Trees -/

open Process (Total)

/-- A leaf needs no rounds. -/
theorem Component.IsLeaf.total {c : Component} (h : c.IsLeaf) (n : Nat) (e : Evaluator)
    (register : Record) : Total (c.run n e register) := by
  cases c with
  | action | executable | log | setMemory | getMemory | deleteMemory => exact Total.ofEffect _
  | exit => exact Total.pure _
  | schema | loop | forEach | filter | switch | evaluator => cases h

mutual

/-- With as many rounds as its largest bound, a tree with bounded loops always ends. -/
theorem Component.total_of_loopsBounded {n : Nat} (c : Component) (h : c.LoopsBounded)
    (hn : c.largestBound ≤ n) (e : Evaluator) (register : Record) :
    Total (c.run n e register) := by
  match c with
  | .schema name steps => exact Component.total_steps steps h.2 hn name e 0 register
  | .loop name body condition bound =>
    obtain ⟨k, rfl⟩ : ∃ k, bound = some k := Option.isSome_iff_exists.mp h.1
    obtain ⟨hk, hbody, hcondition⟩ : k ≤ n ∧ body.largestBound ≤ n ∧
        Predicate.largestOptionBound condition ≤ n := by
      simpa only [Component.largestBound, Option.getD_some, Nat.max_le] using hn
    refine Total.bind (Total.rounds (fun r => ?_) (fun r => ?_) (by omega) register) fun finish =>
      Total.bind (Total.ofEffect _) fun _ => Total.pure _
    · exact Total.within _ (Component.total_of_loopsBounded body h.2.1 hbody (e.child name) r)
    · exact Predicate.total_option condition h.2.2 hcondition e r
  | .forEach name body _ _ =>
    have hbody (r : Record) := Total.within (e.child name)
      (Component.total_of_loopsBounded body h.2 hn (e.child name) r)
    refine Total.bind (Total.ofEffect _) fun items => ?_
    refine Total.bind (Total.each hbody items) fun results => ?_
    cases results with
    | none => exact Total.pure _
    | some results => exact Total.pure _
  | .filter _ condition _ _ =>
    refine Total.bind (Total.ofEffect _) fun items => ?_
    exact Total.bind (Total.kept (Predicate.total_check condition h.2 hn e) items) fun kept =>
      Total.pure _
  | .switch name branches => exact Branch.total_branches branches h.2 hn name e 0 register
  | .evaluator context body =>
    exact Total.within _ (Component.total_of_loopsBounded body h.2 hn context register)
  | .action .. | .executable .. | .exit _ | .log .. | .setMemory .. | .getMemory ..
  | .deleteMemory .. =>
    refine Component.IsLeaf.total ?_ n e register
    exact True.intro

theorem Component.total_steps {n : Nat} (steps : List Component)
    (h : Component.EveryStep Component.IfLoopBounded (fun _ => True) steps)
    (hn : Component.largestStepBound steps ≤ n) (name : String) (e : Evaluator) (index : Nat)
    (register : Record) : Total (runSteps n name steps e index register) := by
  match steps with
  | [] => exact Total.pure _
  | step :: rest =>
    obtain ⟨hstep, hrest⟩ := Nat.max_le.mp hn
    rw [runSteps_cons]
    refine Total.step e name index step.name register ?_ fun r => ?_
    · exact Component.total_of_loopsBounded step h.1 hstep e register
    · exact Component.total_steps rest h.2 hrest name e (index + 1) r

/-- A switch has so many branches, and each ends or is skipped. -/
theorem Branch.total_branches {n : Nat} (branches : List Branch)
    (h : Branch.EveryOf Component.IfLoopBounded (fun _ => True) branches)
    (hn : Branch.largestBoundOf branches ≤ n) (name : String) (e : Evaluator) (index : Nat)
    (register : Record) : Total (runBranches n name branches e index register) := by
  match branches with
  | [] => exact Total.pure _
  | branch :: rest =>
    obtain ⟨hbranch, hn'⟩ := Nat.max_le.mp hn
    have hrest (r : Record) := Branch.total_branches rest h.2 hn' name e (index + 1) r
    refine Total.bind (Branch.total_offer branch h.1 hbranch e register) fun outcome => ?_
    match outcome with
    | .skipped r => exact hrest r
    | .taken (.exitLoop r) => exact Total.pure _
    | .taken (.next r) =>
      refine Total.bind (Total.ofEffect _) fun _ => ?_
      split
      · exact Total.pure _
      · exact hrest r

theorem Branch.total_offer {n : Nat} (branch : Branch)
    (h : branch.Every Component.IfLoopBounded fun _ => True) (hn : branch.largestBound ≤ n)
    (e : Evaluator) (register : Record) : Total (branch.offer n e register) := by
  match branch with
  | .mk name condition body _ =>
    obtain ⟨hcondition, hbody⟩ := Nat.max_le.mp hn
    refine Total.bind (Predicate.total_option condition h.1 hcondition e register) fun holds => ?_
    split
    · refine Total.bind (Total.within _ ?_) fun outcome => Total.pure _
      exact Component.total_of_loopsBounded body h.2 hbody (e.child name) register
    · exact Total.pure _

theorem Predicate.total_option {n : Nat} (condition : Option Predicate)
    (h : Predicate.EveryOption Component.IfLoopBounded (fun _ => True) condition)
    (hn : Predicate.largestOptionBound condition ≤ n) (e : Evaluator) (register : Record) :
    Total (holds n condition e register) := by
  match condition with
  | none => exact Total.pure _
  | some p => exact Predicate.total_check p h hn e register

/-- A predicate ends when the bodies of its conditions do. -/
theorem Predicate.total_check {n : Nat} (p : Predicate)
    (h : p.Every Component.IfLoopBounded fun _ => True) (hn : p.largestBound ≤ n)
    (e : Evaluator) (register : Record) : Total (p.check n e register) := by
  match p with
  | .test check => exact Total.ofEffect _
  | .not p => exact Total.bind (Predicate.total_check p h.2 hn e register) fun b => Total.pure _
  | .all ps => exact Predicate.total_all ps h.2 hn e register
  | .condition name validator body state =>
    obtain ⟨hvalidator, hbody⟩ := Nat.max_le.mp hn
    have hbody (r : Record) := Total.within (e.child name)
      (Component.total_of_loopsBounded body h.2.2 hbody (e.child name) r)
    have hvalidator (r : Record) := Predicate.total_check validator h.2.1 hvalidator e r
    cases state with
    | none =>
      refine Total.bind (Total.pure register) fun r => ?_
      exact Total.bind (hbody r) fun outcome => hvalidator outcome.register
    | some identifiers =>
      refine Total.bind (Total.ofEffect _) fun r => ?_
      exact Total.bind (hbody r) fun outcome => hvalidator outcome.register

theorem Predicate.total_all {n : Nat} (ps : List Predicate)
    (h : Predicate.EveryOf Component.IfLoopBounded (fun _ => True) ps)
    (hn : Predicate.largestBoundOf ps ≤ n) (e : Evaluator) (register : Record) :
    Total (checkAll n ps e register) := by
  match ps with
  | [] => exact Total.pure _
  | p :: rest =>
    obtain ⟨hp, hrest⟩ := Nat.max_le.mp hn
    refine Total.bind (Predicate.total_check p h.1 hp e register) fun b => ?_
    split
    · exact Predicate.total_all rest h.2 hrest e register
    · exact Total.pure _

end

/-! ## What one call of a loop does -/

/-- How often a loop checked its condition and ran its body. -/
structure LoopWork where
  checks : Nat
  bodies : Nat
  deriving DecidableEq

/-- One more check of the condition. -/
def LoopWork.check (work : LoopWork) : LoopWork := { work with checks := work.checks + 1 }

/-- One more run of the body. -/
def LoopWork.body (work : LoopWork) : LoopWork := { work with bodies := work.bodies + 1 }

/-- The rounds of a loop in an evaluator, with what they do counted beside the world. -/
def countedRounds (n : Nat) (name : String) (body : Component) (condition : Option Predicate)
    (bound : Option Nat) (e : Evaluator) (register : Record) :
    Process (World × LoopWork) ExecutionError LoopEnd :=
  Process.rounds
    (fun r => (evaluateIn (e.child name) (body.run n (e.child name) r)).noting
      fun _ _ work => work.body)
    (fun r => (holds n condition e r).noting fun _ _ work => work.check) bound n 0 register

/-- Without the counts, the counted rounds are the rounds of the loop. -/
theorem countedRounds_forgets (n : Nat) (name : String) (body : Component)
    (condition : Option Predicate) (bound : Option Nat) (e : Evaluator) (register : Record) :
    (countedRounds n name body condition bound e register).Forgets
      (loopRounds n name body condition bound e register) := by
  rw [loopRounds, runRounds_eq_rounds]
  exact Process.Forgets.rounds bound (fun r => .noting _ _) (fun r => .noting _ _) n 0 register

/-- From any state, the process adds so many checks and runs of the body at most. -/
def Process.Spends {σ ε α : Type} (x : Process (σ × LoopWork) ε α) (checks bodies : Nat) : Prop :=
  ∀ ⦃s work z⦄, x (s, work) = some z →
    z.state.2.checks ≤ work.checks + checks ∧ z.state.2.bodies ≤ work.bodies + bodies

namespace Process.Spends

variable {σ ε α β : Type} {x : Process (σ × LoopWork) ε α} {i j p q : Nat}

theorem pure (a : α) : Spends (Pure.pure a : Process (σ × LoopWork) ε α) 0 0 := by
  intro s work z h
  cases h
  exact ⟨Nat.le_refl _, Nat.le_refl _⟩

theorem endless : Spends (Process.endless : Process (σ × LoopWork) ε α) 0 0 := by
  intro s work z h
  cases h

/-- A noted check of the condition counts one. -/
theorem noting_check (y : Process σ ε α) : Spends (y.noting fun _ _ work => work.check) 1 0 := by
  intro s work z h
  obtain ⟨run, _, rfl⟩ := Option.map_eq_some_iff.mp h
  exact ⟨Nat.le_refl _, Nat.le_refl _⟩

/-- A noted run of the body counts one. -/
theorem noting_body (y : Process σ ε α) : Spends (y.noting fun _ _ work => work.body) 0 1 := by
  intro s work z h
  obtain ⟨run, _, rfl⟩ := Option.map_eq_some_iff.mp h
  exact ⟨Nat.le_refl _, Nat.le_refl _⟩

/-- What spends so much spends at most more. -/
theorem mono (hx : Spends x i p) (hi : i ≤ j) (hp : p ≤ q) : Spends x j q := by
  intro s work z h
  obtain ⟨hchecks, hbodies⟩ := hx h
  exact ⟨by omega, by omega⟩

/-- What the parts spend is added up. -/
theorem bind {f : α → Process (σ × LoopWork) ε β} (hx : Spends x i p)
    (hf : ∀ a, Spends (f a) j q) : Spends (x >>= f) (i + j) (p + q) := by
  intro s work z h
  obtain ⟨error, events, s', hrun, rfl⟩ | ⟨a, first, s', second, hrun, hrunf, rfl⟩ :=
    bind_eq_some.mp h
  · obtain ⟨hchecks, hbodies⟩ := hx hrun
    dsimp only at hchecks hbodies ⊢
    exact ⟨by omega, by omega⟩
  · obtain ⟨hchecks, hbodies⟩ := hx hrun
    obtain ⟨hchecks', hbodies'⟩ := hf a hrunf
    dsimp only [Run.after_state] at hchecks hbodies hchecks' hbodies' ⊢
    exact ⟨by omega, by omega⟩

/-- What is left of the bound limits what is still to come: a round below the bound takes
one check and one run of the body. -/
theorem rounds (body : Record → Process σ ExecutionError Outcome)
    (condition : Record → Process σ ExecutionError Bool) (k n done : Nat) (register : Record) :
    Spends (Process.rounds (fun r => (body r).noting fun _ _ work => work.body)
      (fun r => (condition r).noting fun _ _ work => work.check) (some k) n done register)
      (k - done) (k - done) := by
  induction n generalizing done register with
  | zero =>
    unfold Process.rounds
    split
    · exact (pure _).mono (by omega) (by omega)
    · next hbelow =>
      have hlt : done < k := by simpa using hbelow
      refine (bind (j := 0) (q := 0) (noting_check _) fun holds => ?_).mono (by omega) (by omega)
      split
      · exact pure _
      · exact endless
  | succ n ih =>
    unfold Process.rounds
    split
    · exact (pure _).mono (by omega) (by omega)
    · next hbelow =>
      have hlt : done < k := by simpa using hbelow
      refine (bind (j := k - (done + 1)) (q := 1 + (k - (done + 1))) (noting_check _)
        fun holds => ?_).mono (by omega) (by omega)
      split
      · exact (pure _).mono (by omega) (by omega)
      · refine (bind (j := k - (done + 1)) (q := k - (done + 1)) (noting_body _)
          fun outcome => ?_).mono (by omega) (by omega)
        cases outcome with
        | next r => exact ih (done + 1) r
        | exitLoop r => exact (pure _).mono (by omega) (by omega)

end Process.Spends

/-! ## The result -/

/-- A tree with bounded loops ends from every register, in every evaluator and world.  A call
of a loop with a bound, in any tree and however it ends, checks its condition and runs its body
that often at most, whether the condition ever fails or not. -/
theorem bounded_tree_ends :
    (∀ c : Component, c.LoopsBounded → ∀ e register w, ∃ z, c.Halts e register w z) ∧
    ∀ rounds name body condition k e register,
      (countedRounds rounds name body condition (some k) e register).Forgets
        (loopRounds rounds name body condition (some k) e register) ∧
      ∀ w z, countedRounds rounds name body condition (some k) e register (w, ⟨0, 0⟩) = some z →
        z.state.2.checks ≤ k ∧ z.state.2.bodies ≤ k := by
  refine ⟨?_, ?_⟩
  · intro c hbounded e register w
    have htotal := Component.total_of_loopsBounded c hbounded (Nat.le_refl _) e register
    obtain ⟨z, hrun⟩ := htotal w
    exact ⟨z, c.largestBound, hrun⟩
  · intro rounds name body condition k e register
    refine ⟨countedRounds_forgets rounds name body condition (some k) e register, ?_⟩
    intro w z hrun
    obtain ⟨hchecks, hbodies⟩ := Process.Spends.rounds _ _ k rounds 0 register hrun
    exact ⟨by simpa using hchecks, by simpa using hbodies⟩

/-- A condition that holds for ever, and goes round a loop of its own to find out. -/
def restlessCondition : Predicate :=
  .condition "Check" (.test fun _ _ => pure true) (.loop "Probe" (.schema "Idle" []) none (some 1))
    none

/-- A loop in an evaluator of its own, for the body of another. -/
def restlessBody : Component :=
  .evaluator (.make "Nested" .off true 1)
    (.loop "Inner" (.schema "Idle" []) (some restlessCondition) (some 2))

/-- A loop for each element of a list, with a loop in its body. -/
def restless : Component :=
  .forEach "Each" (.loop "Outer" restlessBody (some restlessCondition) (some 3)) "xs" "ys"

theorem restless_ends :
    restless.LoopsBounded ∧
    (∀ e register w, ∃ z, restless.Halts e register w z) ∧
    ∃ z, countedRounds 3 "Outer" restlessBody (some restlessCondition) (some 3)
        (.make "Root" .off true 0) ∅ (World.empty, ⟨0, 0⟩) = some z ∧
      z.state.2 = ⟨3, 3⟩ ∧ z.state.2.checks ≤ 3 ∧ z.state.2.bodies ≤ 3 := by
  obtain ⟨hends, hcounts⟩ := bounded_tree_ends
  have hcondition : restlessCondition.Every Component.IfLoopBounded fun _ => True :=
    ⟨trivial, trivial, rfl, ⟨trivial, trivial⟩, trivial⟩
  have hbounded : restless.LoopsBounded :=
    ⟨trivial, rfl, ⟨trivial, rfl, ⟨trivial, trivial⟩, hcondition⟩, hcondition⟩
  have hwork : (countedRounds 3 "Outer" restlessBody (some restlessCondition) (some 3)
      (.make "Root" .off true 0) ∅ (World.empty, ⟨0, 0⟩)).map (·.state.2) = some ⟨3, 3⟩ := by
    decide +kernel
  obtain ⟨z, hrun, hz⟩ := Option.map_eq_some_iff.mp hwork
  obtain ⟨_, hcounted⟩ := hcounts 3 "Outer" restlessBody (some restlessCondition) 3
    (.make "Root" .off true 0) ∅
  exact ⟨hbounded, hends _ hbounded, z, hrun, hz, hcounted _ _ hrun⟩

end Pipeline
