import Pipeline.Proofs.Halting

/-!
# Turning fast exit off

Fast exit decides what a schema does with a failed step.  A run that gives a value
under fast exit had no failed step in its own evaluator, so it is the same run
without fast exit: the same outcome, events and world
(`Component.halts_without_fastExit`).  A nested evaluator keeps its own policy, and
what failed inside it was its own affair.

This needs that neither the executables nor the tests in the tree look at the policy
themselves (`fastExit_needs_tests`).
-/

namespace Pipeline

/-- The evaluator with another policy. -/
def Evaluator.withFastExit (e : Evaluator) (fastExit : Bool) : Evaluator :=
  { e with fastExit := fastExit }

/-! ## Units that do not look at the policy -/

/-- The executable does the same under either policy. -/
def Executable.IgnoresPolicy (x : Executable) : Prop :=
  ∀ data e fastExit, x.invoke data (e.withFastExit fastExit) = x.invoke data e

/-- If the component is an executable, it does the same under either policy. -/
def Component.UnitIgnoresPolicy : Component → Prop
  | .executable _ _ x => x.IgnoresPolicy
  | _ => True

/-- If the predicate is a test, it does the same under either policy. -/
def Predicate.TestIgnoresPolicy : Predicate → Prop
  | .test check => ∀ register e fastExit,
      check register (e.withFastExit fastExit) = check register e
  | _ => True

/-- No executable and no test in the tree looks at the policy. -/
def Component.IgnoresPolicy (c : Component) : Prop :=
  c.Every Component.UnitIgnoresPolicy Predicate.TestIgnoresPolicy

theorem Executable.IgnoresPolicy.runExecutable_eq {x : Executable} (hx : x.IgnoresPolicy)
    (e : Evaluator) (fastExit : Bool) (name : String) (view : View) (register : Record) :
    runExecutable name view x (e.withFastExit fastExit) register =
      runExecutable name view x e register := by
  unfold runExecutable
  simp only [executeSelected_congr fun data => hx data e fastExit]
  rfl

/-- A leaf that ignores the policy does the same under either. -/
theorem Component.IsLeaf.run_withFastExit {c : Component} (h : c.IsLeaf)
    (hc : c.UnitIgnoresPolicy) (rounds : Nat) (e : Evaluator) (fastExit : Bool)
    (register : Record) :
    c.run rounds (e.withFastExit fastExit) register = c.run rounds e register := by
  cases c with
  | executable name view x =>
    have hx : x.IgnoresPolicy := hc
    change Process.ofEffect (runExecutable name view x (e.withFastExit fastExit) register) = _
    rw [hx.runExecutable_eq e fastExit]
    rfl
  | action | exit | log | setMemory | getMemory | deleteMemory => rfl
  | schema | loop | forEach | filter | switch | evaluator => cases h

/-! ## The comparison -/

/-- The second course gives every value that the first one gives, in the same way. -/
def ExtendsOk {α : Type} (x y : Course α) : Prop :=
  ∀ ⦃w : World⦄ ⦃a : α⦄ ⦃events : List Event⦄ ⦃w' : World⦄,
    x w = some ⟨.ok a, events, w'⟩ → y w = some ⟨.ok a, events, w'⟩

namespace ExtendsOk

variable {α β : Type}

theorem refl (x : Course α) : ExtendsOk x x := fun _ _ _ _ h => h

theorem bind {x y : Course α} {f g : α → Course β} (hxy : ExtendsOk x y)
    (hfg : ∀ a, ExtendsOk (f a) (g a)) : ExtendsOk (x >>= f) (y >>= g) := by
  intro w b events w' h
  obtain ⟨a, first, mid, second, hx, hf, rfl⟩ := Process.bind_eq_ok.mp h
  exact Process.bind_eq_ok.mpr ⟨a, first, mid, second, hxy hx, hfg a hf, rfl⟩

theorem within (e : Evaluator) {x y : Course Outcome} (hxy : ExtendsOk x y) :
    ExtendsOk (evaluateIn e x) (evaluateIn (e.withFastExit false) y) := by
  intro w outcome events w' h
  exact evaluateIn_eq_ok.mpr (hxy (evaluateIn_eq_ok.mp h))

/-- A schema that gives a value under fast exit had no failed step. -/
theorem step {e : Evaluator} (hfast : e.fastExit = true) {x y : Course Outcome}
    {f g : Record → Course Outcome} (name : String) (index : Nat) (component : String)
    (register : Record) (hxy : ExtendsOk x y) (hfg : ∀ r, ExtendsOk (f r) (g r)) :
    ExtendsOk (afterStep e name index component register x f)
      (afterStep (e.withFastExit false) name index component register y g) := by
  intro w outcome events w' h
  rw [afterStep_apply] at h ⊢
  cases hx : x w with
  | none => rw [hx] at h; cases h
  | some first =>
    rw [hx] at h
    obtain ⟨error | (r | r), before, mid⟩ := first
    · rw [hfast] at h; cases h
    · obtain ⟨⟨result, after, last⟩, hf, hz⟩ := Option.map_eq_some_iff.mp h
      cases hz
      rw [hxy hx]
      simp only [hfg r hf]
      rfl
    · rw [hxy hx]
      exact h

theorem simulation (rounds : Nat) :
    Simulation rounds rounds (fun e e' => e.fastExit = true ∧ e' = e.withFastExit false)
      ExtendsOk (fun _ => Component.UnitIgnoresPolicy) (fun _ => Predicate.TestIgnoresPolicy) where
  le := Nat.le_refl rounds
  endless _ := by intro w a events w' h; cases h
  pure a := refl _
  list register key := refl _
  element item := refl _
  bind := bind
  child name he := by
    obtain ⟨hfast, rfl⟩ := he
    exact ⟨hfast, rfl⟩
  emit message _ he := by
    obtain ⟨_, rfl⟩ := he
    exact refl _
  within he hxy := by
    obtain ⟨_, rfl⟩ := he
    exact within _ hxy
  step name index component register he hxy hfg := by
    obtain ⟨hfast, rfl⟩ := he
    exact step hfast name index component register hxy hfg
  leaf c register hc hQ he := by
    obtain ⟨_, rfl⟩ := he
    rw [hc.run_withFastExit hQ]
    exact refl _
  -- The policy of the enclosing evaluator does not reach a nested one.
  nested context body register _ _ := refl _
  test check register hR he := by
    obtain ⟨_, rfl⟩ := he
    rw [show check register (Evaluator.withFastExit _ false) = _ from hR register _ false]
    exact refl _
  fetch name validator body register identifiers _ he := by
    obtain ⟨_, rfl⟩ := he
    exact refl _

end ExtendsOk

/-- A component that gives an outcome under fast exit gives the same outcome without
it, with the same events and the same world. -/
theorem Component.halts_without_fastExit {c : Component} (h : c.IgnoresPolicy) {e : Evaluator}
    {register : Record} {w w' : World} {outcome : Outcome} {events : List Event}
    (hrun : c.Halts (e.withFastExit true) register w ⟨.ok outcome, events, w'⟩) :
    c.Halts (e.withFastExit false) register w ⟨.ok outcome, events, w'⟩ := by
  obtain ⟨rounds, hrun⟩ := hrun
  have hpolicy : (e.withFastExit true).fastExit = true ∧
      e.withFastExit false = (e.withFastExit true).withFastExit false := ⟨rfl, rfl⟩
  exact ⟨rounds, (ExtendsOk.simulation rounds).run c h hpolicy register hrun⟩

/-- A step fails in a nested evaluator that goes on, and a loop meets a break in its
condition and in its body. -/
def patient : Component :=
  .schema "Outer"
    [.evaluator (.make "Nested" .warn false 1)
      (.schema "Inner" [.action "Rename" (.root "output" .local) (.rename ⟨"a", "b"⟩)]),
     .loop "Loop" (.exit "Break")
      (some (.condition "Check" (.test fun r _ => pure r.isEmpty) (.exit "Break") none)) none]

theorem patient_without_fastExit :
    patient.IgnoresPolicy ∧
    patient.Halts (.withFastExit (.make "Root" .warn true 0) true) ∅ World.empty
      ⟨.ok (.next ∅),
        [⟨.error, "Nested", .stepFailed "Inner" 0 "Rename" (.action "Rename" (.missingKey "a"))⟩,
         ⟨.warn, "Nested", .stepSkipped "Inner" 0⟩], World.empty⟩ ∧
    patient.Halts (.withFastExit (.make "Root" .warn true 0) false) ∅ World.empty
      ⟨.ok (.next ∅),
        [⟨.error, "Nested", .stepFailed "Inner" 0 "Rename" (.action "Rename" (.missingKey "a"))⟩,
         ⟨.warn, "Nested", .stepSkipped "Inner" 0⟩], World.empty⟩ := by
  have hpolicy : patient.IgnoresPolicy := by
    refine ⟨trivial, ⟨trivial, ⟨trivial, trivial, trivial⟩⟩, ?_, trivial⟩
    exact ⟨trivial, trivial, trivial, fun _ _ _ => rfl, trivial⟩
  have hrun : patient.Halts (.withFastExit (.make "Root" .warn true 0) true) ∅ World.empty _ :=
    ⟨1, rfl⟩
  exact ⟨hpolicy, hrun, Component.halts_without_fastExit hpolicy hrun⟩

/-- It is not enough that no executable looks at the policy: a test may keep what it is asked
about under fast exit only. -/
theorem fastExit_needs_tests :
    ¬ ∀ (c : Component) (e : Evaluator) (register : Record) (w w' : World) (outcome : Outcome)
      (events : List Event), c.Every Component.UnitIgnoresPolicy (fun _ => True) →
      c.Halts (e.withFastExit true) register w ⟨.ok outcome, events, w'⟩ →
      c.Halts (e.withFastExit false) register w ⟨.ok outcome, events, w'⟩ := by
  intro h
  have hkept : (askingFilter fun e => pure e.fastExit).Halts
      (.withFastExit (.make "Root" .off true 0) true) (listOf [∅]) World.empty
      ⟨.ok (.next (listOf [∅])), [], World.empty⟩ := ⟨0, rfl⟩
  have hdropped : (askingFilter fun e => pure e.fastExit).Halts
      (.withFastExit (.make "Root" .off true 0) false) (listOf [∅]) World.empty
      ⟨.ok (.next (listOf [])), [], World.empty⟩ := ⟨0, rfl⟩
  have hsame := (h (askingFilter _) _ _ _ _ _ _ ⟨trivial, trivial⟩ hkept).unique hdropped
  have houtcome := Except.ok.inj (congrArg Run.result hsame)
  exact listOf_one_ne_none (Outcome.next.inj houtcome)

end Pipeline
