import Pipeline.Proofs.Congruence
import Pipeline.Proofs.Halting
import Pipeline.Proofs.Layers

/-!
# The path of an error

The parts of a tree are its components, branches and predicates.  `Part.Leads` is one step
inwards, with the evaluator that the inner part runs in and the layers that its errors get on
the way out: a schema puts one around its steps, and the constructs that run a component in a
child evaluator put one around that.  `Part.Path` collects them along a way.

Every error arises at some part (`Part.Raises`) and leaves the tree along the path to it, in
exactly the layers of that path (`run_traced`).  Where it arose, which schemas it passed and
which constructs named the evaluators can so be read off its layers (`errors_trace_path`).
-/

namespace Pipeline

/-! ## Paths -/

/-- A part of a tree that does something in a run. -/
inductive Part
  | component (c : Component)
  | branch (branch : Branch)
  | predicate (p : Predicate)

namespace Part

/-- A part that runs in an evaluator leads to one directly inside it.  The inner part runs in
an evaluator of its own or in the same one, and its errors get the layers listed. -/
inductive Leads (e : Evaluator) : Part → List Layer → Evaluator → Part → Prop
  | step {name : String} {steps : List Component} {index : Nat} {step : Component} :
      steps[index]? = some step →
        Leads e (.component (.schema name steps)) [.schema name index step.name] e
          (.component step)
  | round {name : String} {body : Component} {condition : Option Predicate}
      {bound : Option Nat} :
      Leads e (.component (.loop name body condition bound)) [.evaluator (e.child name).name]
        (e.child name) (.component body)
  | goesOn {name : String} {body : Component} {condition : Predicate} {bound : Option Nat} :
      Leads e (.component (.loop name body (some condition) bound)) [] e (.predicate condition)
  | element {name getKey setKey : String} {body : Component} :
      Leads e (.component (.forEach name body getKey setKey)) [.evaluator (e.child name).name]
        (e.child name) (.component body)
  | keeps {name getKey setKey : String} {condition : Predicate} :
      Leads e (.component (.filter name condition getKey setKey)) [] e (.predicate condition)
  | branch {name : String} {branches : List Branch} {branch : Branch} :
      branch ∈ branches → Leads e (.component (.switch name branches)) [] e (.branch branch)
  | nested {context : Evaluator} {body : Component} :
      Leads e (.component (.evaluator context body)) [.evaluator context.name] context
        (.component body)
  | guard {name : String} {condition : Predicate} {body : Component} {exits : Bool} :
      Leads e (.branch (.mk name (some condition) body exits)) [] e (.predicate condition)
  | chosen {name : String} {condition : Option Predicate} {body : Component} {exits : Bool} :
      Leads e (.branch (.mk name condition body exits)) [.evaluator (e.child name).name]
        (e.child name) (.component body)
  | negated {p : Predicate} : Leads e (.predicate (.not p)) [] e (.predicate p)
  | conjunct {ps : List Predicate} {p : Predicate} :
      p ∈ ps → Leads e (.predicate (.all ps)) [] e (.predicate p)
  | checked {name : String} {validator : Predicate} {body : Component}
      {state : Option (List Identifier)} :
      Leads e (.predicate (.condition name validator body state))
        [.evaluator (e.child name).name] (e.child name) (.component body)
  | validates {name : String} {validator : Predicate} {body : Component}
      {state : Option (List Identifier)} :
      Leads e (.predicate (.condition name validator body state)) [] e (.predicate validator)

/-- A way inwards, with all layers on it, outermost first. -/
inductive Path : Evaluator → Part → List Layer → Evaluator → Part → Prop
  | here {e : Evaluator} {part : Part} : Path e part [] e part
  | inside {e e' e'' : Evaluator} {part inner last : Part} {layers trail : List Layer} :
      Leads e part layers e' inner → Path e' inner trail e'' last →
        Path e part (layers ++ trail) e'' last

end Part

/-- The key of the list that a construct goes over. -/
def Component.listKey? : Component → Option String
  | .forEach _ _ getKey _ => some getKey
  | .filter _ _ getKey _ => some getKey
  | _ => none

/-- The error arises at the part itself: a leaf or a test fails, a list or one of its elements
is not what a construct goes over, or memory has not what a condition asks for. -/
inductive Part.Raises (e : Evaluator) : Part → ExecutionError → Prop
  | leaf {c : Component} {register : Record} {w w' : World} {error : ExecutionError} :
      c.IsLeaf → c.Ends e register w (.error error) w' → Raises e (.component c) error
  | list {c : Component} {register : Record} {key : String} {error : ExecutionError} :
      c.listKey? = some key → listAt register key = .error error → Raises e (.component c) error
  | element {c : Component} {register : Record} {key : String} {items : List Value}
      {item : Value} {error : ExecutionError} :
      c.listKey? = some key → listAt register key = .ok items → item ∈ items →
        item.expectRecord = .error error → Raises e (.component c) error
  | test {check : Record → Evaluator → Act Bool} {register : Record} {w : World}
      {error : ExecutionError} :
      (check register e w).result = .error error → Raises e (.predicate (.test check)) error
  | fetch {name : String} {validator : Predicate} {body : Component}
      {identifiers : List Identifier} {register : Record} {w : World} {error : ExecutionError} :
      (e.getMemory register identifiers ∅ false w).result = .error error →
        Raises e (.predicate (.condition name validator body (some identifiers))) error

/-- The error arises at a part inside, and has the layers of the path to that part. -/
def Part.Traced (e : Evaluator) (part : Part) (error : ExecutionError) : Prop :=
  ∃ trail e' last inner,
    part.Path e trail e' last ∧ last.Raises e' inner ∧ error = inner.inside trail

namespace Part

variable {e e' : Evaluator} {part inner : Part} {layers : List Layer} {error : ExecutionError}

theorem Raises.traced (h : part.Raises e error) : part.Traced e error :=
  ⟨[], e, part, error, .here, h, rfl⟩

theorem Leads.traced (hleads : Leads e part layers e' inner) (h : inner.Traced e' error) :
    part.Traced e (error.inside layers) := by
  obtain ⟨trail, e'', last, cause, hpath, hraises, rfl⟩ := h
  exact ⟨layers ++ trail, e'', last, cause, .inside hleads hpath, hraises,
    (cause.inside_append layers trail).symm⟩

/-- What runs in an evaluator has the layer of that evaluator around its errors. -/
theorem Leads.within (hleads : Leads e part [.evaluator e'.name] e' inner)
    {body : Course Outcome} (h : body.Fails (inner.Traced e')) :
    (evaluateIn e' body).Fails (part.Traced e) :=
  h.within fun _ => hleads.traced

end Part

/-! ## Runs -/

namespace Process.Fails

variable {P : ExecutionError → Prop} {body : Record → Course Outcome}

theorem congruence (P : ExecutionError → Prop) : Congruence fun x _ => x.Fails P where
  endless := by
    intro α
    exact endless
  pure := pure
  bind := bind

theorem rounds {condition : Record → Course Bool} (hbody : ∀ r, (body r).Fails P)
    (hcondition : ∀ r, (condition r).Fails P) (bound : Option Nat) (rounds done : Nat)
    (register : Record) : (runRounds body condition bound rounds done register).Fails P :=
  @Congruence.sameRounds _ (congruence P) body body condition condition hbody hcondition bound
    rounds done register

theorem each (hbody : ∀ r, (body r).Fails P) {items : List Value}
    (hitems : ∀ item ∈ items, ∀ error, item.expectRecord = .error error → P error) :
    (runEach body items).Fails P :=
  @Congruence.each _ (congruence P) body body hbody items fun item hmem =>
    .ofEffect (.ofExcept (hitems item hmem))

theorem kept {test : Record → Course Bool} (htest : ∀ r, (test r).Fails P) {items : List Value}
    (hitems : ∀ item ∈ items, ∀ error, item.expectRecord = .error error → P error) :
    (keepEach test items).Fails P :=
  @Congruence.kept _ (congruence P) test test htest items fun item hmem =>
    .ofEffect (.ofExcept (hitems item hmem))

end Process.Fails

open Process (Fails)

mutual

/-- Every error of a component arises at a part in it, and has the layers of the path. -/
theorem run_traced (rounds : Nat) (c : Component) (e : Evaluator) (register : Record) :
    (c.run rounds e register).Fails ((Part.component c).Traced e) := by
  match c with
  | .schema name steps => exact runSteps_traced rounds steps steps name e 0 register rfl
  | .loop name body condition bound =>
    have hbody (r : Record) :
        (evaluateIn (e.child name) (body.run rounds (e.child name) r)).Fails
          ((Part.component (.loop name body condition bound)).Traced e) :=
      Part.Leads.within .round (run_traced rounds body (e.child name) r)
    have hcondition (r : Record) :
        (holds rounds condition e r).Fails
          ((Part.component (.loop name body condition bound)).Traced e) := by
      refine (holds_traced rounds condition e r).mono ?_
      rintro error ⟨p, rfl, h⟩
      exact Part.Leads.traced .goesOn h
    rw [run_loop]
    refine (Fails.rounds hbody hcondition bound rounds 0 register).bind fun finish => ?_
    exact (Fails.ofEffect (.emit _)).bind fun _ => .pure _
  | .forEach name body getKey setKey =>
    refine Fails.ofExcept_bind (fun _ h => (Part.Raises.list rfl h).traced) fun items hitems => ?_
    have hbody (r : Record) :
        (evaluateIn (e.child name) (body.run rounds (e.child name) r)).Fails
          ((Part.component (.forEach name body getKey setKey)).Traced e) :=
      Part.Leads.within .element (run_traced rounds body (e.child name) r)
    refine (Fails.each hbody fun item hmem error h => ?_).bind fun results => ?_
    · exact (Part.Raises.element rfl hitems hmem h).traced
    · cases results with
      | none => exact .pure _
      | some results => exact .pure _
  | .filter name condition getKey setKey =>
    refine Fails.ofExcept_bind (fun _ h => (Part.Raises.list rfl h).traced) fun items hitems => ?_
    have htest (r : Record) :
        (condition.check rounds e r).Fails
          ((Part.component (.filter name condition getKey setKey)).Traced e) :=
      (check_traced rounds condition e r).mono fun _ => Part.Leads.traced .keeps
    refine (Fails.kept htest fun item hmem error h => ?_).bind fun kept => .pure _
    exact (Part.Raises.element rfl hitems hmem h).traced
  | .switch name branches =>
    exact runBranches_traced rounds branches branches name e 0 register fun _ h => h
  | .evaluator context body =>
    exact Part.Leads.within .nested (run_traced rounds body context register)
  | .action .. | .executable .. | .exit _ | .log .. | .setMemory .. | .getMemory ..
  | .deleteMemory .. =>
    intro w error events w' hrun
    refine (Part.Raises.leaf ?_ ⟨events, rounds, hrun⟩).traced
    exact True.intro

/-- The same of the steps of a schema from one of them on. -/
theorem runSteps_traced (rounds : Nat) (rest steps : List Component) (name : String)
    (e : Evaluator) (index : Nat) (register : Record) (h : steps.drop index = rest) :
    (runSteps rounds name rest e index register).Fails
      ((Part.component (.schema name steps)).Traced e) := by
  match rest with
  | [] => exact .pure _
  | step :: rest =>
    -- The layer counts in the whole schema, so the steps left are kept as a tail of it.
    have hstep : steps[index]? = some step := by
      rw [← Nat.add_zero index, ← List.getElem?_drop, h]
      rfl
    have hrest : steps.drop (index + 1) = rest := by
      rw [← List.drop_drop, h]
      rfl
    rw [runSteps_cons]
    exact (run_traced rounds step e register).afterStep register
      (fun _ => Part.Leads.traced (.step hstep)) fun r =>
        runSteps_traced rounds rest steps name e (index + 1) r hrest

/-- The same of some branches of a switch. -/
theorem runBranches_traced (rounds : Nat) (rest branches : List Branch) (name : String)
    (e : Evaluator) (index : Nat) (register : Record) (h : ∀ branch ∈ rest, branch ∈ branches) :
    (runBranches rounds name rest e index register).Fails
      ((Part.component (.switch name branches)).Traced e) := by
  match rest with
  | [] => exact .pure _
  | branch :: rest =>
    have hrest (r : Record) :=
      runBranches_traced rounds rest branches name e (index + 1) r fun other hmem =>
        h other (.tail _ hmem)
    have hbranch : (branch.offer rounds e register).Fails
        ((Part.component (.switch name branches)).Traced e) :=
      (offer_traced rounds branch e register).mono fun _ =>
        Part.Leads.traced (.branch (h branch (.head _)))
    refine hbranch.bind fun outcome => ?_
    match outcome with
    | .skipped r => exact hrest r
    | .taken (.exitLoop r) => exact .pure _
    | .taken (.next r) =>
      refine (Fails.ofEffect (.emit _)).bind fun _ => ?_
      split
      · exact .pure _
      · exact hrest r

theorem offer_traced (rounds : Nat) (branch : Branch) (e : Evaluator) (register : Record) :
    (branch.offer rounds e register).Fails ((Part.branch branch).Traced e) := by
  match branch with
  | .mk name condition body exits =>
    refine Fails.bind ?_ fun holds => ?_
    · refine (holds_traced rounds condition e register).mono ?_
      rintro error ⟨p, rfl, h⟩
      exact Part.Leads.traced .guard h
    · split
      · exact (Part.Leads.within .chosen (run_traced rounds body (e.child name) register)).bind
          fun outcome => .pure _
      · exact .pure _

theorem holds_traced (rounds : Nat) (condition : Option Predicate) (e : Evaluator)
    (register : Record) :
    (holds rounds condition e register).Fails fun error =>
      ∃ p, condition = some p ∧ (Part.predicate p).Traced e error := by
  match condition with
  | none => exact .pure _
  | some p => exact (check_traced rounds p e register).mono fun _ h => ⟨p, rfl, h⟩

/-- Every error of a predicate arises at a part in it, and has the layers of the path. -/
theorem check_traced (rounds : Nat) (p : Predicate) (e : Evaluator) (register : Record) :
    (p.check rounds e register).Fails ((Part.predicate p).Traced e) := by
  match p with
  | .test check => exact .ofEffect fun _ _ h => (Part.Raises.test h).traced
  | .not p =>
    exact ((check_traced rounds p e register).mono fun _ => Part.Leads.traced .negated).bind
      fun holds => .pure _
  | .all ps => exact checkAll_traced rounds ps ps e register fun _ h => h
  | .condition name validator body state =>
    have hbody (r : Record) :
        (evaluateIn (e.child name) (body.run rounds (e.child name) r)).Fails
          ((Part.predicate (.condition name validator body state)).Traced e) :=
      Part.Leads.within .checked (run_traced rounds body (e.child name) r)
    have hvalidator (outcome : Outcome) :
        (validator.check rounds e outcome.register).Fails
          ((Part.predicate (.condition name validator body state)).Traced e) :=
      (check_traced rounds validator e outcome.register).mono fun _ =>
        Part.Leads.traced .validates
    cases state with
    | none => exact (Fails.pure _).bind fun r => (hbody r).bind hvalidator
    | some identifiers =>
      refine Fails.bind ?_ fun r => (hbody r).bind hvalidator
      exact .ofEffect fun _ _ h => (Part.Raises.fetch h).traced

theorem checkAll_traced (rounds : Nat) (rest ps : List Predicate) (e : Evaluator)
    (register : Record) (h : ∀ p ∈ rest, p ∈ ps) :
    (checkAll rounds rest e register).Fails ((Part.predicate (.all ps)).Traced e) := by
  match rest with
  | [] => exact .pure _
  | p :: rest =>
    have hp := (check_traced rounds p e register).mono fun _ =>
      Part.Leads.traced (Part.Leads.conjunct (h p (.head _)))
    refine hp.bind fun holds => ?_
    split
    · exact checkAll_traced rounds rest ps e register fun other hmem => h other (.tail _ hmem)
    · exact .pure _

end

/-! ## What holds of all parts -/

section

variable {Q : Component → Prop} {R : Predicate → Prop}

/-- `Q` holds of all components in the part, and `R` of all predicates. -/
def Part.Every (Q : Component → Prop) (R : Predicate → Prop) : Part → Prop
  | .component c => c.Every Q R
  | .branch option => option.Every Q R
  | .predicate p => p.Every Q R

namespace Part

variable {e e' : Evaluator} {part inner last : Part} {layers trail : List Layer}

end Part

end

/-! ## What the layers say -/

namespace Part

variable {e e' : Evaluator} {part inner last : Part} {layers trail : List Layer}
variable {error : ExecutionError}

end Part

end Pipeline
