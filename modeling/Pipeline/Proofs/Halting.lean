import Pipeline.Proofs.Simulation

/-!
# Runs that end

A component *halts* with a run when some number of rounds is enough for it to give
that run.  More rounds give the same run (`Component.run_of_le`), so a component halts
with one run at most (`Component.Halts.unique`), and the rounds need not be named.
`Component.Evaluates` and `Decides` are the same for a component in an evaluator of its own
and for a condition.

A test is handed the evaluator as an executable is.  `askingFilter` is a tree without an
executable whose run may depend on its evaluator, so a law about all trees has to ask of tests
what it asks of executables.
-/

namespace Pipeline

/-- The second course gives every run that the first one gives. -/
def Extends {α : Type} (x y : Course α) : Prop :=
  ∀ ⦃w : World⦄ ⦃z : Run World ExecutionError α⦄, x w = some z → y w = some z

namespace Extends

variable {α β : Type}

theorem refl (x : Course α) : Extends x x := fun _ _ h => h

theorem bind {x y : Course α} {f g : α → Course β} (hxy : Extends x y)
    (hfg : ∀ a, Extends (f a) (g a)) : Extends (x >>= f) (y >>= g) := by
  intro w z h
  obtain ⟨error, events, w', hx, rfl⟩ | ⟨a, first, mid, second, hx, hf, rfl⟩ :=
    Process.bind_eq_some.mp h
  · exact Process.bind_eq_some.mpr (.inl ⟨error, events, w', hxy hx, rfl⟩)
  · exact Process.bind_eq_some.mpr (.inr ⟨a, first, mid, second, hxy hx, hfg a hf, rfl⟩)

theorem within (e : Evaluator) {x y : Course Outcome} (hxy : Extends x y) :
    Extends (evaluateIn e x) (evaluateIn e y) := by
  intro w z h
  obtain ⟨outcome, events, w', hx, rfl⟩ | ⟨error, events, w', hx, rfl⟩ :=
    evaluateIn_eq_some.mp h
  · exact evaluateIn_eq_some.mpr (.inl ⟨outcome, events, w', hxy hx, rfl⟩)
  · exact evaluateIn_eq_some.mpr (.inr ⟨error, events, w', hxy hx, rfl⟩)

theorem step (e : Evaluator) {x y : Course Outcome} {f g : Record → Course Outcome}
    (name : String) (index : Nat) (component : String) (register : Record) (hxy : Extends x y)
    (hfg : ∀ r, Extends (f r) (g r)) :
    Extends (afterStep e name index component register x f)
      (afterStep e name index component register y g) := by
  intro w z h
  apply afterStep_eq_some.mpr
  cases afterStep_eq_some.mp h with
  | completed hx hf => exact .completed (hxy hx) (hfg _ hf)
  | exited hx => exact .exited (hxy hx)
  | failed hx hfast => exact .failed (hxy hx) hfast
  | skipped hx hfast hf => exact .skipped (hxy hx) hfast (hfg _ hf)

/-- Going round loops more often keeps every run there is. -/
theorem simulation {n m : Nat} (h : n ≤ m) :
    Simulation n m Eq Extends (fun _ _ => True) (fun _ _ => True) where
  le := h
  endless _ := by intro w z hz; cases hz
  pure a := refl _
  list register key := refl _
  element item := refl _
  bind := bind
  child name he := by rw [he]
  emit message _ he := by rw [he]; exact refl _
  within he hxy := by rw [he]; exact within _ hxy
  step name index component register he hxy hfg := by
    rw [he]; exact step _ name index component register hxy hfg
  leaf c register hc _ he := by
    rw [he, hc.run_eq n m]
    exact refl _
  nested context body register _ ih := within context (ih context rfl)
  test check register _ he := by rw [he]; exact refl _
  fetch name validator body register identifiers _ he := by rw [he]; exact refl _

end Extends

namespace Component

/-- A component that gives a run gives it with more rounds too. -/
theorem run_of_le {n m : Nat} (hnm : n ≤ m) {c : Component} {e : Evaluator} {register : Record}
    {w : World} {z : Run World ExecutionError Outcome} (h : c.run n e register w = some z) :
    c.run m e register w = some z :=
  (Extends.simulation hnm).run c (c.every_of_forall (fun _ => trivial) fun _ => trivial) rfl
    register h

/-- The component gives the run if it may go round its loops often enough. -/
def Halts (c : Component) (e : Evaluator) (register : Record) (w : World)
    (z : Run World ExecutionError Outcome) : Prop :=
  ∃ rounds, c.run rounds e register w = some z

/-- A component halts with one run at most. -/
theorem Halts.unique {c : Component} {e : Evaluator} {register : Record} {w : World}
    {z z' : Run World ExecutionError Outcome} (h : c.Halts e register w z)
    (h' : c.Halts e register w z') : z = z' := by
  obtain ⟨n, hn⟩ := h
  obtain ⟨m, hm⟩ := h'
  have hz := run_of_le (Nat.le_max_left n m) hn
  have hz' := run_of_le (Nat.le_max_right n m) hm
  exact Option.some.inj (hz.symm.trans hz')

/-- The component gives the run in an evaluator of its own. -/
def Evaluates (c : Component) (e : Evaluator) (register : Record) (w : World)
    (z : Run World ExecutionError Outcome) : Prop :=
  ∃ rounds, c.evaluate rounds e register w = some z

theorem evaluate_of_le {n m : Nat} (hnm : n ≤ m) {c : Component} {e : Evaluator}
    {register : Record} {w : World} {z : Run World ExecutionError Outcome}
    (h : c.evaluate n e register w = some z) : c.evaluate m e register w = some z :=
  Extends.within e (fun _ _ hrun => run_of_le hnm hrun) h

/-- The component halts with the answer and leaves the world. -/
def Ends (c : Component) (e : Evaluator) (register : Record) (w : World)
    (result : Except ExecutionError Outcome) (w' : World) : Prop :=
  ∃ events, c.Halts e register w ⟨result, events, w'⟩

theorem ends_iff {c : Component} {e : Evaluator} {register : Record} {w w' : World}
    {result : Except ExecutionError Outcome} :
    c.Ends e register w result w' ↔
      ∃ rounds, (c.run rounds e register).ending w = some (result, w') := by
  constructor
  · rintro ⟨events, rounds, h⟩
    exact ⟨rounds, Process.ending_eq_some.mpr ⟨events, h⟩⟩
  · rintro ⟨rounds, h⟩
    obtain ⟨events, h⟩ := Process.ending_eq_some.mp h
    exact ⟨events, rounds, h⟩

/-- A component that ends does so with any number of rounds that is large enough. -/
theorem Ends.ending_of_ge {c : Component} {e : Evaluator} {register : Record} {w w' : World}
    {result : Except ExecutionError Outcome} (h : c.Ends e register w result w') (k : Nat) :
    ∃ n, k ≤ n ∧ (c.run n e register).ending w = some (result, w') := by
  obtain ⟨events, n, hrun⟩ := h
  exact ⟨max k n, by omega, Process.ending_of_some (run_of_le (by omega) hrun)⟩

/-- Two components that end do so with one number of rounds. -/
theorem Ends.ending_both {c c' : Component} {e e' : Evaluator} {register register' : Record}
    {w w' u u' : World} {result result' : Except ExecutionError Outcome}
    (h : c.Ends e register w result w') (h' : c'.Ends e' register' u result' u') :
    ∃ n, (c.run n e register).ending w = some (result, w') ∧
      (c'.run n e' register').ending u = some (result', u') := by
  obtain ⟨events, n, hrun⟩ := h
  obtain ⟨events', m, hrun'⟩ := h'
  exact ⟨max n m, Process.ending_of_some (run_of_le (Nat.le_max_left n m) hrun),
    Process.ending_of_some (run_of_le (Nat.le_max_right n m) hrun')⟩

/-- A component ends in one way at most. -/
theorem Ends.unique {c : Component} {e : Evaluator} {register : Record} {w w' w'' : World}
    {result result' : Except ExecutionError Outcome} (h : c.Ends e register w result w')
    (h' : c.Ends e register w result' w'') : result = result' ∧ w' = w'' := by
  obtain ⟨events, h⟩ := h
  obtain ⟨events', h'⟩ := h'
  cases h.unique h'
  exact ⟨rfl, rfl⟩

end Component

/-- The condition, which holds if there is none, gives the run. -/
def Decides (condition : Option Predicate) (e : Evaluator) (register : Record) (w : World)
    (z : Run World ExecutionError Bool) : Prop :=
  ∃ rounds, holds rounds condition e register w = some z

theorem holds_of_le {n m : Nat} (hnm : n ≤ m) {condition : Option Predicate} {e : Evaluator}
    {register : Record} {w : World} {z : Run World ExecutionError Bool}
    (h : holds n condition e register w = some z) : holds m condition e register w = some z := by
  have hevery : Predicate.EveryOption (fun _ => True) (fun _ => True) condition :=
    Predicate.everyOption_of_forall (fun _ => trivial) (fun _ => trivial) condition
  exact (Extends.simulation hnm).condition condition (hevery.everyOptionIn e) rfl register h

/-- A condition gives one run at most. -/
theorem Decides.unique {condition : Option Predicate} {e : Evaluator} {register : Record}
    {w : World} {z z' : Run World ExecutionError Bool} (h : Decides condition e register w z)
    (h' : Decides condition e register w z') : z = z' := by
  obtain ⟨n, hn⟩ := h
  obtain ⟨m, hm⟩ := h'
  have hz := holds_of_le (Nat.le_max_left n m) hn
  have hz' := holds_of_le (Nat.le_max_right n m) hm
  exact Option.some.inj (hz.symm.trans hz')

/-! ## A tree that shows its evaluator -/

/-- A register with some mappings to go over. -/
def listOf (items : List Record) : Record :=
  (∅ : Record).insert "xs" (.list (items.map .mapping))

theorem listOf_one_ne_none : listOf [∅] ≠ listOf [] := by decide

/-- A filter that asks its evaluator whether to keep an element.  There is no executable in it:
what looks at the evaluator is its test. -/
def askingFilter (ask : Evaluator → Act Bool) : Component :=
  .filter "Keep" (.test fun _ e => ask e) "xs" "xs"

end Pipeline
