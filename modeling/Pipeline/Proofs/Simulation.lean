import Pipeline.Proofs.Congruence
import Pipeline.Proofs.Constructs
import Pipeline.Proofs.Leaves
import Pipeline.Proofs.Tree

/-!
# Simulations

Two runs of one tree are compared by a relation between courses.  The two may have
different rounds and different evaluators.  `Simulation` lists what the relation must
keep: sequences, the steps of a schema, evaluators, and the units that see an
evaluator.  `Simulation.runIn` then relates the runs of every tree whose parts satisfy
what the units need, each in the evaluator it runs in; `Simulation.run` is the same for
needs that no evaluator changes.

The induction over trees, branches, conditions and rounds is done here once.  A
comparison of two runs is an instance of `Simulation`, and so is a statement about one
run, which compares it with itself.
-/

namespace Pipeline

/-- A relation between courses that every construct keeps.  The first course has `n`
rounds and the second `m`, `E` relates their evaluators, and the trees are those whose
components satisfy `Q` and whose predicates satisfy `R` in the first evaluator. -/
structure Simulation (n m : Nat) (E : Evaluator → Evaluator → Prop)
    (sim : {α : Type} → Course α → Course α → Prop) (Q : Evaluator → Component → Prop)
    (R : Evaluator → Predicate → Prop) : Prop where
  /-- The second course may go round its loops at least as often. -/
  le : n ≤ m
  /-- A course that gave no answer yet is related to any other. -/
  endless : ∀ {α : Type} (y : Course α), sim Process.endless y
  pure : ∀ {α : Type} (a : α), sim (Pure.pure a : Course α) (Pure.pure a)
  /-- The list that a construct goes over may be missing. -/
  list : ∀ (register : Record) (key : String),
    sim (Process.ofExcept (listAt register key)) (Process.ofExcept (listAt register key))
  /-- An element of a list may be no mapping. -/
  element : ∀ item : Value,
    sim (Process.ofExcept item.expectRecord) (Process.ofExcept item.expectRecord)
  bind : ∀ {α β : Type} {x y : Course α} {f g : α → Course β},
    sim x y → (∀ a, sim (f a) (g a)) → sim (x >>= f) (y >>= g)
  child : ∀ {e e' : Evaluator} (name : String), E e e' → E (e.child name) (e'.child name)
  /-- What loops and switches report is no failure. -/
  emit : ∀ {e e' : Evaluator} (message : Message), message.level = .debug → E e e' →
    sim (Process.emit (e.logger.log message)) (Process.emit (e'.logger.log message))
  within : ∀ {e e' : Evaluator} {x y : Course Outcome},
    E e e' → sim x y → sim (evaluateIn e x) (evaluateIn e' y)
  step : ∀ {e e' : Evaluator} {x y : Course Outcome} {f g : Record → Course Outcome}
    (name : String) (index : Nat) (component : String) (register : Record),
    E e e' → sim x y → (∀ r, sim (f r) (g r)) →
      sim (afterStep e name index component register x f)
        (afterStep e' name index component register y g)
  leaf : ∀ {e e' : Evaluator} (c : Component) (register : Record),
    c.IsLeaf → Q e c → E e e' → sim (c.run n e register) (c.run m e' register)
  /-- A nested evaluator is on its own; its body is related to itself. -/
  nested : ∀ {e : Evaluator} (context : Evaluator) (body : Component) (register : Record),
    Q e (.evaluator context body) →
      (∀ e', E context e' → sim (body.run n context register) (body.run m e' register)) →
      sim (evaluateIn context (body.run n context register))
        (evaluateIn context (body.run m context register))
  test : ∀ {e e' : Evaluator} (check : Record → Evaluator → Act Bool) (register : Record),
    R e (.test check) → E e e' →
      sim (Process.ofEffect (check register e)) (Process.ofEffect (check register e'))
  fetch : ∀ {e e' : Evaluator} (name : String) (validator : Predicate) (body : Component)
    (register : Record) (identifiers : List Identifier),
    R e (.condition name validator body (some identifiers)) → E e e' →
      sim (Process.ofEffect (e.getMemory register identifiers ∅ false))
        (Process.ofEffect (e'.getMemory register identifiers ∅ false))

namespace Simulation

variable {n m : Nat} {E : Evaluator → Evaluator → Prop}
  {sim : {α : Type} → Course α → Course α → Prop} {Q : Evaluator → Component → Prop}
  {R : Evaluator → Predicate → Prop}

/-! ## Loops and lists -/

/-- A simulation goes through the constructs. -/
theorem congruence (S : Simulation n m E sim Q R) : Congruence sim where
  endless := S.endless _
  pure := S.pure
  bind := S.bind

theorem rounds (S : Simulation n m E sim Q R) {body body' : Record → Course Outcome}
    {condition condition' : Record → Course Bool} (bound : Option Nat)
    (hbody : ∀ r, sim (body r) (body' r)) (hcondition : ∀ r, sim (condition r) (condition' r))
    (done : Nat) (register : Record) :
    sim (runRounds body condition bound n done register)
      (runRounds body' condition' bound m done register) :=
  S.congruence.rounds bound hbody hcondition S.le (fun _ => S.endless) done register

theorem each (S : Simulation n m E sim Q R) {body body' : Record → Course Outcome}
    (hbody : ∀ r, sim (body r) (body' r)) (items : List Value) :
    sim (runEach body items) (runEach body' items) :=
  S.congruence.each hbody fun item _ => S.element item

theorem kept (S : Simulation n m E sim Q R) {test test' : Record → Course Bool}
    (htest : ∀ r, sim (test r) (test' r)) (items : List Value) :
    sim (keepEach test items) (keepEach test' items) :=
  S.congruence.kept htest fun item _ => S.element item

/-! ## Trees -/

mutual

/-- The runs of a tree are related. -/
theorem runIn (S : Simulation n m E sim Q R) (c : Component) {e e' : Evaluator}
    (h : c.EveryIn Q R e) (he : E e e') (register : Record) :
    sim (c.run n e register) (c.run m e' register) := by
  match c with
  | .action .. => exact S.leaf _ register trivial h he
  | .executable .. => exact S.leaf _ register trivial h he
  | .schema name steps => exact S.steps steps h.2 he name 0 register
  | .loop name body condition bound =>
    have hbody (r : Record) := S.within (S.child name he) (S.runIn body h.2.1 (S.child name he) r)
    refine S.bind (S.rounds bound hbody (S.condition condition h.2.2 he) 0 register) ?_
    intro finish
    exact S.bind (S.emit _ rfl he) fun _ => S.pure _
  | .forEach name body _ _ =>
    have hbody (r : Record) := S.within (S.child name he) (S.runIn body h.2 (S.child name he) r)
    refine S.bind (S.list _ _) fun items => ?_
    refine S.bind (S.each hbody items) fun results => ?_
    cases results with
    | none => exact S.pure _
    | some results => exact S.pure _
  | .filter _ condition _ _ =>
    refine S.bind (S.list _ _) fun items => ?_
    exact S.bind (S.kept (S.check condition h.2 he) items) fun kept => S.pure _
  | .switch name branches => exact S.branches branches h.2 he name 0 register
  | .exit _ => exact S.leaf _ register trivial h he
  | .log .. => exact S.leaf _ register trivial h he
  | .setMemory .. => exact S.leaf _ register trivial h he
  | .getMemory .. => exact S.leaf _ register trivial h he
  | .deleteMemory .. => exact S.leaf _ register trivial h he
  | .evaluator context body =>
    exact S.nested context body register h.1 fun _ he => S.runIn body h.2 he register

/-- Each step is in the relation, at one index on both sides. -/
theorem steps (S : Simulation n m E sim Q R) (program : List Component)
    {e e' : Evaluator} (h : Component.EveryStepIn Q R program e) (he : E e e') (name : String)
    (index : Nat) (register : Record) :
    sim (runSteps n name program e index register) (runSteps m name program e' index register) := by
  match program with
  | [] => exact S.pure _
  | step :: rest =>
    rw [runSteps_cons, runSteps_cons]
    refine S.step name index step.name register he (S.runIn step h.1 he register) fun r => ?_
    exact S.steps rest h.2 he name (index + 1) r

/-- Each branch is in the relation, at one index on both sides. -/
theorem branches (S : Simulation n m E sim Q R) (options : List Branch)
    {e e' : Evaluator} (h : Branch.EveryOfIn Q R options e) (he : E e e') (name : String)
    (index : Nat) (register : Record) :
    sim (runBranches n name options e index register)
      (runBranches m name options e' index register) := by
  match options with
  | [] => exact S.pure _
  | branch :: rest =>
    refine S.bind (S.offer branch h.1 he register) fun outcome => ?_
    match outcome with
    | .skipped r => exact S.branches rest h.2 he name (index + 1) r
    | .taken (.exitLoop r) => exact S.pure _
    | .taken (.next r) =>
      refine S.bind (S.emit _ rfl he) fun _ => ?_
      split
      · exact S.pure _
      · exact S.branches rest h.2 he name (index + 1) r

theorem offer (S : Simulation n m E sim Q R) (branch : Branch) {e e' : Evaluator}
    (h : branch.EveryIn Q R e) (he : E e e') (register : Record) :
    sim (branch.offer n e register) (branch.offer m e' register) := by
  match branch with
  | .mk name condition body _ =>
    refine S.bind (S.condition condition h.1 he register) fun holds => ?_
    split
    · have hbody := S.runIn body h.2 (S.child name he) register
      exact S.bind (S.within (S.child name he) hbody) fun outcome => S.pure _
    · exact S.pure _

theorem condition (S : Simulation n m E sim Q R) (condition : Option Predicate)
    {e e' : Evaluator} (h : Predicate.EveryOptionIn Q R condition e) (he : E e e')
    (register : Record) :
    sim (holds n condition e register) (holds m condition e' register) := by
  match condition with
  | none => exact S.pure _
  | some p => exact S.check p h he register

/-- A condition fetches its entries, runs its body, and asks its validator. -/
theorem check (S : Simulation n m E sim Q R) (p : Predicate) {e e' : Evaluator}
    (h : p.EveryIn Q R e) (he : E e e') (register : Record) :
    sim (p.check n e register) (p.check m e' register) := by
  match p with
  | .test check => exact S.test check register h he
  | .not p => exact S.bind (S.check p h.2 he register) fun holds => S.pure _
  | .all ps => exact S.predicates ps h.2 he register
  | .condition name validator body state =>
    have hbody (r : Record) := S.within (S.child name he) (S.runIn body h.2.2 (S.child name he) r)
    cases state with
    | none =>
      refine S.bind (S.pure register) fun r => ?_
      exact S.bind (hbody r) fun outcome => S.check validator h.2.1 he outcome.register
    | some identifiers =>
      refine S.bind (S.fetch name validator body register identifiers h.1 he) fun r => ?_
      exact S.bind (hbody r) fun outcome => S.check validator h.2.1 he outcome.register

theorem predicates (S : Simulation n m E sim Q R) (ps : List Predicate)
    {e e' : Evaluator} (h : Predicate.EveryOfIn Q R ps e) (he : E e e') (register : Record) :
    sim (checkAll n ps e register) (checkAll m ps e' register) := by
  match ps with
  | [] => exact S.pure _
  | p :: rest =>
    refine S.bind (S.check p h.1 he register) fun holds => ?_
    split
    · exact S.predicates rest h.2 he register
    · exact S.pure _

end

/-- The runs of a tree are related when its parts satisfy what no evaluator changes. -/
theorem run {Q : Component → Prop} {R : Predicate → Prop}
    (S : Simulation n m E sim (fun _ => Q) (fun _ => R)) (c : Component) (h : c.Every Q R)
    {e e' : Evaluator} (he : E e e') (register : Record) :
    sim (c.run n e register) (c.run m e' register) :=
  S.runIn c (h.everyIn e) he register

end Simulation

end Pipeline
