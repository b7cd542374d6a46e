import Pipeline.Component

/-!
# Properties of every part of a tree

`Component.Every Q R` says that `Q` holds of every component in a tree and `R` of
every predicate in it.  The tree is taken as a whole: the bodies of loops, branches,
elements and nested evaluators belong to it, and so do conditions with the components
they run.

`Component.EveryIn Q R` says the same of each part together with the evaluator that the
part runs in, given the one that the tree runs in.
-/

namespace Pipeline

mutual

/-- `Q` holds of the component and of all components in it, and `R` of all predicates
in it. -/
def Component.Every (Q : Component → Prop) (R : Predicate → Prop) : Component → Prop
  | .action name view action => Q (.action name view action)
  | .executable name view x => Q (.executable name view x)
  | .schema name steps => Q (.schema name steps) ∧ Component.EveryStep Q R steps
  | .loop name body condition bound =>
    Q (.loop name body condition bound) ∧ body.Every Q R ∧ Predicate.EveryOption Q R condition
  | .forEach name body getKey setKey => Q (.forEach name body getKey setKey) ∧ body.Every Q R
  | .filter name condition getKey setKey =>
    Q (.filter name condition getKey setKey) ∧ condition.Every Q R
  | .switch name branches => Q (.switch name branches) ∧ Branch.EveryOf Q R branches
  | .exit name => Q (.exit name)
  | .log name spec => Q (.log name spec)
  | .setMemory name key getKey instruction => Q (.setMemory name key getKey instruction)
  | .getMemory name identifiers default instruction =>
    Q (.getMemory name identifiers default instruction)
  | .deleteMemory name keys => Q (.deleteMemory name keys)
  | .evaluator context body => Q (.evaluator context body) ∧ body.Every Q R

/-- The same of all steps in a list. -/
def Component.EveryStep (Q : Component → Prop) (R : Predicate → Prop) : List Component → Prop
  | [] => True
  | step :: rest => step.Every Q R ∧ Component.EveryStep Q R rest

/-- The same of all branches in a list. -/
def Branch.EveryOf (Q : Component → Prop) (R : Predicate → Prop) : List Branch → Prop
  | [] => True
  | branch :: rest => branch.Every Q R ∧ Branch.EveryOf Q R rest

/-- The same of the condition and the body of a branch. -/
def Branch.Every (Q : Component → Prop) (R : Predicate → Prop) : Branch → Prop
  | .mk _ condition body _ => Predicate.EveryOption Q R condition ∧ body.Every Q R

/-- The same of a condition, if there is one. -/
def Predicate.EveryOption (Q : Component → Prop) (R : Predicate → Prop) :
    Option Predicate → Prop
  | none => True
  | some p => p.Every Q R

/-- `R` holds of the predicate and of all predicates in it, and `Q` of all components
in it. -/
def Predicate.Every (Q : Component → Prop) (R : Predicate → Prop) : Predicate → Prop
  | .test check => R (.test check)
  | .not p => R (.not p) ∧ p.Every Q R
  | .all ps => R (.all ps) ∧ Predicate.EveryOf Q R ps
  | .condition name validator body state =>
    R (.condition name validator body state) ∧ validator.Every Q R ∧ body.Every Q R

/-- The same of all predicates in a list. -/
def Predicate.EveryOf (Q : Component → Prop) (R : Predicate → Prop) : List Predicate → Prop
  | [] => True
  | p :: rest => p.Every Q R ∧ Predicate.EveryOf Q R rest

end

mutual

/-- `Q` holds of the component and of all components in it, each with the evaluator it
runs in, and `R` of all predicates in it. -/
def Component.EveryIn (Q : Evaluator → Component → Prop) (R : Evaluator → Predicate → Prop) :
    Component → Evaluator → Prop
  | .action name view action, e => Q e (.action name view action)
  | .executable name view x, e => Q e (.executable name view x)
  | .schema name steps, e => Q e (.schema name steps) ∧ Component.EveryStepIn Q R steps e
  | .loop name body condition bound, e =>
    Q e (.loop name body condition bound) ∧ body.EveryIn Q R (e.child name) ∧
      Predicate.EveryOptionIn Q R condition e
  | .forEach name body getKey setKey, e =>
    Q e (.forEach name body getKey setKey) ∧ body.EveryIn Q R (e.child name)
  | .filter name condition getKey setKey, e =>
    Q e (.filter name condition getKey setKey) ∧ condition.EveryIn Q R e
  | .switch name branches, e => Q e (.switch name branches) ∧ Branch.EveryOfIn Q R branches e
  | .exit name, e => Q e (.exit name)
  | .log name spec, e => Q e (.log name spec)
  | .setMemory name key getKey instruction, e => Q e (.setMemory name key getKey instruction)
  | .getMemory name identifiers default instruction, e =>
    Q e (.getMemory name identifiers default instruction)
  | .deleteMemory name keys, e => Q e (.deleteMemory name keys)
  | .evaluator context body, e => Q e (.evaluator context body) ∧ body.EveryIn Q R context

/-- The same of all steps in a list. -/
def Component.EveryStepIn (Q : Evaluator → Component → Prop)
    (R : Evaluator → Predicate → Prop) : List Component → Evaluator → Prop
  | [], _ => True
  | step :: rest, e => step.EveryIn Q R e ∧ Component.EveryStepIn Q R rest e

/-- The same of all branches in a list. -/
def Branch.EveryOfIn (Q : Evaluator → Component → Prop) (R : Evaluator → Predicate → Prop) :
    List Branch → Evaluator → Prop
  | [], _ => True
  | branch :: rest, e => branch.EveryIn Q R e ∧ Branch.EveryOfIn Q R rest e

/-- The same of the condition and the body of a branch. -/
def Branch.EveryIn (Q : Evaluator → Component → Prop) (R : Evaluator → Predicate → Prop) :
    Branch → Evaluator → Prop
  | .mk name condition body _, e =>
    Predicate.EveryOptionIn Q R condition e ∧ body.EveryIn Q R (e.child name)

/-- The same of a condition, if there is one. -/
def Predicate.EveryOptionIn (Q : Evaluator → Component → Prop)
    (R : Evaluator → Predicate → Prop) : Option Predicate → Evaluator → Prop
  | none, _ => True
  | some p, e => p.EveryIn Q R e

/-- `R` holds of the predicate and of all predicates in it, and `Q` of all components
in it, each with the evaluator it runs in. -/
def Predicate.EveryIn (Q : Evaluator → Component → Prop) (R : Evaluator → Predicate → Prop) :
    Predicate → Evaluator → Prop
  | .test check, e => R e (.test check)
  | .not p, e => R e (.not p) ∧ p.EveryIn Q R e
  | .all ps, e => R e (.all ps) ∧ Predicate.EveryOfIn Q R ps e
  | .condition name validator body state, e =>
    R e (.condition name validator body state) ∧ validator.EveryIn Q R e ∧
      body.EveryIn Q R (e.child name)

/-- The same of all predicates in a list. -/
def Predicate.EveryOfIn (Q : Evaluator → Component → Prop) (R : Evaluator → Predicate → Prop) :
    List Predicate → Evaluator → Prop
  | [], _ => True
  | p :: rest, e => p.EveryIn Q R e ∧ Predicate.EveryOfIn Q R rest e

end

section

variable {Q : Component → Prop} {R : Predicate → Prop}

mutual

/-- What holds of all components and predicates holds of every part of a tree. -/
theorem Component.every_of_forall (hQ : ∀ c, Q c) (hR : ∀ p, R p) (c : Component) :
    c.Every Q R := by
  match c with
  | .action .. => exact hQ _
  | .executable .. => exact hQ _
  | .schema _ steps => exact ⟨hQ _, Component.everyStep_of_forall hQ hR steps⟩
  | .loop _ body condition _ =>
    exact ⟨hQ _, Component.every_of_forall hQ hR body,
      Predicate.everyOption_of_forall hQ hR condition⟩
  | .forEach _ body _ _ => exact ⟨hQ _, Component.every_of_forall hQ hR body⟩
  | .filter _ condition _ _ => exact ⟨hQ _, Predicate.every_of_forall hQ hR condition⟩
  | .switch _ branches => exact ⟨hQ _, Branch.everyOf_of_forall hQ hR branches⟩
  | .exit _ => exact hQ _
  | .log .. => exact hQ _
  | .setMemory .. => exact hQ _
  | .getMemory .. => exact hQ _
  | .deleteMemory .. => exact hQ _
  | .evaluator _ body => exact ⟨hQ _, Component.every_of_forall hQ hR body⟩

theorem Component.everyStep_of_forall (hQ : ∀ c, Q c) (hR : ∀ p, R p) (steps : List Component) :
    Component.EveryStep Q R steps := by
  match steps with
  | [] => trivial
  | step :: rest =>
    exact ⟨Component.every_of_forall hQ hR step, Component.everyStep_of_forall hQ hR rest⟩

theorem Branch.everyOf_of_forall (hQ : ∀ c, Q c) (hR : ∀ p, R p) (branches : List Branch) :
    Branch.EveryOf Q R branches := by
  match branches with
  | [] => trivial
  | branch :: rest =>
    exact ⟨Branch.every_of_forall hQ hR branch, Branch.everyOf_of_forall hQ hR rest⟩

theorem Branch.every_of_forall (hQ : ∀ c, Q c) (hR : ∀ p, R p) (branch : Branch) :
    branch.Every Q R := by
  match branch with
  | .mk _ condition body _ =>
    exact ⟨Predicate.everyOption_of_forall hQ hR condition,
      Component.every_of_forall hQ hR body⟩

theorem Predicate.everyOption_of_forall (hQ : ∀ c, Q c) (hR : ∀ p, R p)
    (condition : Option Predicate) : Predicate.EveryOption Q R condition := by
  match condition with
  | none => trivial
  | some p => exact Predicate.every_of_forall hQ hR p

theorem Predicate.every_of_forall (hQ : ∀ c, Q c) (hR : ∀ p, R p) (p : Predicate) :
    p.Every Q R := by
  match p with
  | .test _ => exact hR _
  | .not p => exact ⟨hR _, Predicate.every_of_forall hQ hR p⟩
  | .all ps => exact ⟨hR _, Predicate.everyOf_of_forall hQ hR ps⟩
  | .condition _ validator body _ =>
    exact ⟨hR _, Predicate.every_of_forall hQ hR validator,
      Component.every_of_forall hQ hR body⟩

theorem Predicate.everyOf_of_forall (hQ : ∀ c, Q c) (hR : ∀ p, R p) (ps : List Predicate) :
    Predicate.EveryOf Q R ps := by
  match ps with
  | [] => trivial
  | p :: rest =>
    exact ⟨Predicate.every_of_forall hQ hR p, Predicate.everyOf_of_forall hQ hR rest⟩

end

mutual

/-- What holds of every part of a tree holds of it in every evaluator. -/
theorem Component.Every.everyIn {c : Component} (h : c.Every Q R) (e : Evaluator) :
    c.EveryIn (fun _ => Q) (fun _ => R) e := by
  match c with
  | .action .. => exact h
  | .executable .. => exact h
  | .schema _ steps => exact ⟨h.1, Component.EveryStep.everyStepIn h.2 e⟩
  | .loop name body condition _ =>
    exact ⟨h.1, Component.Every.everyIn h.2.1 (e.child name),
      Predicate.EveryOption.everyOptionIn h.2.2 e⟩
  | .forEach name body _ _ => exact ⟨h.1, Component.Every.everyIn h.2 (e.child name)⟩
  | .filter _ condition _ _ => exact ⟨h.1, Predicate.Every.everyIn h.2 e⟩
  | .switch _ branches => exact ⟨h.1, Branch.EveryOf.everyOfIn h.2 e⟩
  | .exit _ => exact h
  | .log .. => exact h
  | .setMemory .. => exact h
  | .getMemory .. => exact h
  | .deleteMemory .. => exact h
  | .evaluator context body => exact ⟨h.1, Component.Every.everyIn h.2 context⟩

theorem Component.EveryStep.everyStepIn {steps : List Component}
    (h : Component.EveryStep Q R steps) (e : Evaluator) :
    Component.EveryStepIn (fun _ => Q) (fun _ => R) steps e := by
  match steps with
  | [] => trivial
  | step :: rest =>
    exact ⟨Component.Every.everyIn h.1 e, Component.EveryStep.everyStepIn h.2 e⟩

theorem Branch.EveryOf.everyOfIn {branches : List Branch} (h : Branch.EveryOf Q R branches)
    (e : Evaluator) : Branch.EveryOfIn (fun _ => Q) (fun _ => R) branches e := by
  match branches with
  | [] => trivial
  | branch :: rest => exact ⟨Branch.Every.everyIn h.1 e, Branch.EveryOf.everyOfIn h.2 e⟩

theorem Branch.Every.everyIn {branch : Branch} (h : branch.Every Q R) (e : Evaluator) :
    branch.EveryIn (fun _ => Q) (fun _ => R) e := by
  match branch with
  | .mk name condition body _ =>
    exact ⟨Predicate.EveryOption.everyOptionIn h.1 e,
      Component.Every.everyIn h.2 (e.child name)⟩

theorem Predicate.EveryOption.everyOptionIn {condition : Option Predicate}
    (h : Predicate.EveryOption Q R condition) (e : Evaluator) :
    Predicate.EveryOptionIn (fun _ => Q) (fun _ => R) condition e := by
  match condition with
  | none => trivial
  | some p => exact Predicate.Every.everyIn h e

theorem Predicate.Every.everyIn {p : Predicate} (h : p.Every Q R) (e : Evaluator) :
    p.EveryIn (fun _ => Q) (fun _ => R) e := by
  match p with
  | .test _ => exact h
  | .not p => exact ⟨h.1, Predicate.Every.everyIn h.2 e⟩
  | .all ps => exact ⟨h.1, Predicate.EveryOf.everyOfIn h.2 e⟩
  | .condition name validator body _ =>
    exact ⟨h.1, Predicate.Every.everyIn h.2.1 e, Component.Every.everyIn h.2.2 (e.child name)⟩

theorem Predicate.EveryOf.everyOfIn {ps : List Predicate} (h : Predicate.EveryOf Q R ps)
    (e : Evaluator) : Predicate.EveryOfIn (fun _ => Q) (fun _ => R) ps e := by
  match ps with
  | [] => trivial
  | p :: rest => exact ⟨Predicate.Every.everyIn h.1 e, Predicate.EveryOf.everyOfIn h.2 e⟩

end

/-! ## Single parts -/

/-- What holds of every part holds of the tree itself. -/
theorem Component.Every.root {c : Component} (h : c.Every Q R) : Q c := by
  cases c with
  | action | executable | exit | log | setMemory | getMemory | deleteMemory => exact h
  | schema | loop | forEach | filter | switch | evaluator => exact h.1

theorem Predicate.Every.root {p : Predicate} (h : p.Every Q R) : R p := by
  cases p with
  | test => exact h
  | not | all | condition => exact h.1

end

end Pipeline
