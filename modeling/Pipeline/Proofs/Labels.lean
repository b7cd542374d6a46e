import Pipeline.Proofs.Alike
import Pipeline.Stock.Executable
import Pipeline.Stock.Predicate

/-!
# Names are labels

`Component.unnamed` takes every display name out of a tree: those of components, branches,
conditions, nested evaluators, and of the functions in leaves.  Two trees that are equal
without names differ in names only.

A tree runs as it does without names (`run_unnamed`), up to events and to the names in the
layers of an error (`EndAlike`), if no unit asks its evaluator for a name.  So names decide
nothing: of two trees that differ in names only, both give the same outcome, or both fail with
errors of the same shape (`names_are_labels`).  A test that asks for a name is enough to tell
two such trees apart (`labels_need_tests`).
-/

namespace Pipeline

/-! ## Errors without names -/

/-- The layer without its names. -/
def Layer.unnamed : Layer → Layer
  | .action _ => .action ""
  | .executable _ => .executable ""
  | .schema _ step _ => .schema "" step ""
  | .evaluator _ => .evaluator ""

/-- The error without the names of its layers. -/
def ExecutionError.unnamed : ExecutionError → ExecutionError
  | .action _ inner => .action "" inner.unnamed
  | .executable _ inner => .executable "" inner.unnamed
  | .schemaFailed _ step _ inner => .schemaFailed "" step "" inner.unnamed
  | .evaluator _ inner => .evaluator "" inner.unnamed
  | cause => cause

/-- The errors have layers of the same kinds and of the same steps around the same cause. -/
structure ExecutionError.SameShape (error error' : ExecutionError) : Prop where
  kinds : error.layers.map Layer.kind = error'.layers.map Layer.kind
  steps : error.layers.filterMap Layer.step? = error'.layers.filterMap Layer.step?
  rootCause : error.rootCause = error'.rootCause

namespace ExecutionError

variable {error error' : ExecutionError}

theorem SameShape.symm (h : SameShape error error') : SameShape error' error :=
  ⟨h.kinds.symm, h.steps.symm, h.rootCause.symm⟩

/-- The names of an error are those of its layers and of what is inside. -/
theorem unnamed_wrap (layer : Layer) (error : ExecutionError) :
    (layer.wrap error).unnamed = layer.unnamed.wrap error.unnamed := by
  cases layer <;> rfl

theorem layers_unnamed (error : ExecutionError) :
    error.unnamed.layers = error.layers.map Layer.unnamed := by
  induction error with
  | action name inner ih => exact congrArg (Layer.action "" :: ·) ih
  | executable name inner ih => exact congrArg (Layer.executable "" :: ·) ih
  | schemaFailed name step component inner ih => exact congrArg (Layer.schema "" step "" :: ·) ih
  | evaluator name inner ih => exact congrArg (Layer.evaluator "" :: ·) ih
  | missingKey | invalidQuery | invalidInput | validation | memory | other => rfl

/-- The cause of an error has no name. -/
theorem rootCause_unnamed (error : ExecutionError) : error.unnamed.rootCause = error.rootCause := by
  induction error with
  | action name inner ih => exact ih
  | executable name inner ih => exact ih
  | schemaFailed name step component inner ih => exact ih
  | evaluator name inner ih => exact ih
  | missingKey | invalidQuery | invalidInput | validation | memory | other => rfl

/-- Errors that are equal without names have the same shape. -/
theorem sameShape_of_unnamed (h : error.unnamed = error'.unnamed) : SameShape error error' where
  kinds := by
    have hkind : Layer.kind ∘ Layer.unnamed = Layer.kind := by
      funext layer
      cases layer <;> rfl
    have hlayers := congrArg (fun error => error.layers.map Layer.kind) h
    simpa only [layers_unnamed, List.map_map, hkind] using hlayers
  steps := by
    have hstep : Layer.step? ∘ Layer.unnamed = Layer.step? := by
      funext layer
      cases layer <;> rfl
    have hlayers := congrArg (fun error => error.layers.filterMap Layer.step?) h
    simpa only [layers_unnamed, List.filterMap_map, hstep] using hlayers
  rootCause := by
    rw [← rootCause_unnamed error, h, rootCause_unnamed]

end ExecutionError

/-! ## Trees without names -/

/-- The evaluator without its name. -/
def Evaluator.unnamed (e : Evaluator) : Evaluator := e.rename ""

namespace Evaluator

@[simp] theorem memory_unnamed (e : Evaluator) : e.unnamed.memory = e.memory := rfl

@[simp] theorem fastExit_unnamed (e : Evaluator) : e.unnamed.fastExit = e.fastExit := rfl

@[simp] theorem unnamed_unnamed (e : Evaluator) : e.unnamed.unnamed = e.unnamed := rfl

@[simp] theorem unnamed_child (e : Evaluator) (construct : String) :
    (e.child construct).unnamed = e.unnamed := rfl

end Evaluator

/-- The action without its name. -/
def Action.unnamed (a : Action) : Action := { a with name := "" }

/-- The executable without its name. -/
def Executable.unnamed (x : Executable) : Executable := { x with name := "" }

mutual

/-- The tree without its names. -/
def Component.unnamed : Component → Component
  | .action _ view a => .action "" view a.unnamed
  | .executable _ view x => .executable "" view x.unnamed
  | .schema _ steps => .schema "" (Component.unnamedSteps steps)
  | .loop _ body condition bound =>
    .loop "" body.unnamed (Predicate.unnamedOption condition) bound
  | .forEach _ body getKey setKey => .forEach "" body.unnamed getKey setKey
  | .filter _ condition getKey setKey => .filter "" condition.unnamed getKey setKey
  | .switch _ branches => .switch "" (Branch.unnamedAll branches)
  | .exit _ => .exit ""
  | .log _ spec => .log "" spec
  | .setMemory _ key getKey instruction => .setMemory "" key getKey instruction
  | .getMemory _ identifiers default instruction => .getMemory "" identifiers default instruction
  | .deleteMemory _ keys => .deleteMemory "" keys
  | .evaluator context body => .evaluator context.unnamed body.unnamed

/-- The steps without their names. -/
def Component.unnamedSteps : List Component → List Component
  | [] => []
  | step :: rest => step.unnamed :: Component.unnamedSteps rest

/-- The branches without their names. -/
def Branch.unnamedAll : List Branch → List Branch
  | [] => []
  | branch :: rest => branch.unnamed :: Branch.unnamedAll rest

/-- The branch without its names. -/
def Branch.unnamed : Branch → Branch
  | .mk _ condition body exits => .mk "" (Predicate.unnamedOption condition) body.unnamed exits

/-- The condition, if there is one, without its names. -/
def Predicate.unnamedOption : Option Predicate → Option Predicate
  | none => none
  | some p => some p.unnamed

/-- The predicate without its names. -/
def Predicate.unnamed : Predicate → Predicate
  | .test check => .test check
  | .not p => .not p.unnamed
  | .all ps => .all (Predicate.unnamedAll ps)
  | .condition _ validator body state => .condition "" validator.unnamed body.unnamed state

/-- The predicates without their names. -/
def Predicate.unnamedAll : List Predicate → List Predicate
  | [] => []
  | p :: rest => p.unnamed :: Predicate.unnamedAll rest

end

/-! ## Runs that differ in names -/

variable {α β : Type}

/-- How a course ends, without the names in its error. -/
def Process.withoutNames (x : Course α) (w : World) : Option (Except ExecutionError α × World) :=
  (x.ending w).map fun z => (z.1.mapError ExecutionError.unnamed, z.2)

/-- The courses end in the same way, up to the names in an error. -/
def EndAlike (x y : Course α) : Prop := ∀ w, x.withoutNames w = y.withoutNames w

/-- Layers that are equal without names are alike around errors that are. -/
theorem Layer.alike_of_unnamed {layer layer' : Layer} (h : layer.unnamed = layer'.unnamed) :
    Layer.Alike ExecutionError.unnamed layer layer' := by
  intro error error' herror
  rw [ExecutionError.unnamed_wrap, ExecutionError.unnamed_wrap, h, herror]

namespace EndAlike

variable {x y : Course α} {f g : α → Course β}

theorem refl (x : Course α) : EndAlike x x := AlikeUpTo.refl x

theorem symm (h : EndAlike x y) : EndAlike y x := AlikeUpTo.symm h

theorem trans {z : Course α} (h : EndAlike x y) (h' : EndAlike y z) : EndAlike x z :=
  AlikeUpTo.trans h h'

theorem emit (events events' : List Event) :
    EndAlike (Process.emit events) (Process.emit events') :=
  AlikeUpTo.emit events events'

theorem bind (hx : EndAlike x y) (hf : ∀ a, EndAlike (f a) (g a)) :
    EndAlike (x >>= f) (y >>= g) :=
  AlikeUpTo.bind hx hf

theorem congruence : Congruence @EndAlike := @AlikeUpTo.congruence _ ExecutionError.unnamed

theorem wrap (layer layer' : Layer) (hlayer : layer.unnamed = layer'.unnamed) (h : EndAlike x y) :
    EndAlike (x.mapError layer.wrap) (y.mapError layer'.wrap) :=
  AlikeUpTo.mapError (Layer.alike_of_unnamed hlayer) h

/-- Two evaluators put layers around an error that differ in the name only. -/
theorem within (e e' : Evaluator) {x y : Course Outcome} (h : EndAlike x y) :
    EndAlike (evaluateIn e x) (evaluateIn e' y) :=
  AlikeUpTo.within (Layer.alike_of_unnamed rfl) h

/-- The names that a schema gives to a step and to itself make no difference. -/
theorem step {e e' : Evaluator} (he : e.fastExit = e'.fastExit) (name name' : String)
    (index : Nat) (component component' : String) (register : Record) {x y : Course Outcome}
    {f g : Record → Course Outcome} (hx : EndAlike x y) (hf : ∀ r, EndAlike (f r) (g r)) :
    EndAlike (afterStep e name index component register x f)
      (afterStep e' name' index component' register y g) := by
  have hlayer : Layer.Alike ExecutionError.unnamed (.schema name index component)
      (.schema name' index component') := Layer.alike_of_unnamed rfl
  exact AlikeUpTo.step he hlayer register hx hf

/-- Errors that are equal without names have one cause. -/
theorem sameCause (h : EndAlike x y) : SameCause x y := by
  refine AlikeUpTo.mono (fun error error' hsame => ?_) h
  rw [← ExecutionError.rootCause_unnamed error, hsame, ExecutionError.rootCause_unnamed]

/-- Actions in a row, as courses. -/
theorem act_bind {x y : Act α} {f g : α → Act β}
    (hx : EndAlike (Process.ofEffect x) (Process.ofEffect y))
    (hf : ∀ a, EndAlike (Process.ofEffect (f a)) (Process.ofEffect (g a))) :
    EndAlike (Process.ofEffect (x >>= f)) (Process.ofEffect (y >>= g)) :=
  AlikeUpTo.act_bind hx hf

theorem act_wrap (layer layer' : Layer) (hlayer : layer.unnamed = layer'.unnamed) {x y : Act α}
    (h : EndAlike (Process.ofEffect x) (Process.ofEffect y)) :
    EndAlike (Process.ofEffect (x.mapError layer.wrap))
      (Process.ofEffect (y.mapError layer'.wrap)) :=
  h.wrap layer layer' hlayer

end EndAlike

/-! ## Leaves -/

/-- The executable does the same in evaluators that differ in names only. -/
def Executable.IgnoresNames (x : Executable) : Prop :=
  ∀ data e e', e.unnamed = e'.unnamed →
    EndAlike (Process.ofEffect (x.invoke data e)) (Process.ofEffect (x.invoke data e'))

/-- The work of the component does not depend on names. -/
def Component.IgnoresNames : Component → Prop
  | .executable _ _ x => x.IgnoresNames
  | _ => True

/-- A test gives the same in evaluators that differ in names only. -/
def Predicate.IgnoresNames : Predicate → Prop
  | .test check => ∀ register e e', e.unnamed = e'.unnamed →
    EndAlike (Process.ofEffect (check register e)) (Process.ofEffect (check register e'))
  | _ => True

/-- An answer at hand in a layer, under another name. -/
theorem alike_mapError (y : Except ExecutionError α) (layer layer' : Layer)
    (h : layer.unnamed = layer'.unnamed) :
    EndAlike (Process.ofExcept (y.mapError layer.wrap))
      (Process.ofExcept (y.mapError layer'.wrap)) :=
  (EndAlike.refl (Process.ofExcept y)).wrap layer layer' h

/-- An action looks at its own name and the evaluator's for its report and its layer only. -/
theorem runAction_alike (name name' : String) (view : View) (a : Action) (e e' : Evaluator)
    (register : Record) :
    EndAlike (Process.ofEffect (runAction name view a e register))
      (Process.ofEffect (runAction name' view a.unnamed e' register)) := by
  refine EndAlike.act_bind (alike_mapError _ (.action name) (.action name') rfl) fun data => ?_
  refine EndAlike.act_bind (alike_mapError _ (.action name) (.action name') rfl) fun output => ?_
  exact EndAlike.act_bind (EndAlike.emit _ _) fun _ => EndAlike.refl _

section

variable {x : Executable} (hx : x.IgnoresNames) {e e' : Evaluator} (he : e.unnamed = e'.unnamed)

include hx he

theorem Executable.execute_alike (data : Record) :
    EndAlike (Process.ofEffect (x.execute data e))
      (Process.ofEffect (x.unnamed.execute data e')) := by
  refine EndAlike.act_wrap (.executable x.name) (.executable "") rfl ?_
  refine EndAlike.act_bind (EndAlike.refl _) fun input => ?_
  exact EndAlike.act_bind (hx input e e' he) fun output => EndAlike.refl _

theorem executeEach_alike (name name' : String) (items : List Value) :
    EndAlike (Process.ofEffect (executeEach name x e items))
      (Process.ofEffect (executeEach name' x.unnamed e' items)) := by
  induction items with
  | nil => exact EndAlike.refl _
  | cons item rest ih =>
    refine EndAlike.act_bind (alike_mapError _ (.executable name) (.executable name') rfl) ?_
    intro record
    refine EndAlike.act_bind (Executable.execute_alike hx he record) fun output => ?_
    exact EndAlike.act_bind ih fun results => EndAlike.refl _

theorem executeSelected_alike (name name' : String) (v : Value) :
    EndAlike (Process.ofEffect (executeSelected name x e v))
      (Process.ofEffect (executeSelected name' x.unnamed e' v)) := by
  cases v with
  | mapping record =>
    exact EndAlike.act_bind (Executable.execute_alike hx he record) fun output => EndAlike.refl _
  | list items =>
    refine EndAlike.act_bind (executeEach_alike hx he name name' items) fun results => ?_
    exact EndAlike.refl _
  | null | bool | number | string => exact fun _ => rfl

/-- So does an executable whose work ignores names. -/
theorem runExecutable_alike (name name' : String) (view : View) (register : Record) :
    EndAlike (Process.ofEffect (runExecutable name view x e register))
      (Process.ofEffect (runExecutable name' view x.unnamed e' register)) := by
  refine EndAlike.act_bind (alike_mapError _ (.executable name) (.executable name') rfl) ?_
  intro data
  refine EndAlike.act_bind (executeSelected_alike hx he name name' data) fun (output, items) => ?_
  exact EndAlike.act_bind (EndAlike.emit _ _) fun _ => EndAlike.refl _

end

/-! ## Trees -/

section

variable {e e' : Evaluator} (he : e.unnamed = e'.unnamed)

include he

theorem memory_eq_of_unnamed : e.memory = e'.memory := by
  rw [← e.memory_unnamed, he, e'.memory_unnamed]

theorem fastExit_eq_of_unnamed : e.fastExit = e'.fastExit := by
  rw [← e.fastExit_unnamed, he, e'.fastExit_unnamed]

/-- Child evaluators differ in their names only when their parents do. -/
theorem unnamed_child_eq (construct construct' : String) :
    (e.child construct).unnamed = (e'.child construct').unnamed := by
  rw [Evaluator.unnamed_child, Evaluator.unnamed_child, he]

/-- The memory of an evaluator is not found by its name. -/
theorem getMemory_eq_of_unnamed (register : Record) (identifiers : List Identifier)
    (default : Record) (delete : Bool) :
    e.getMemory register identifiers default delete =
      e'.getMemory register identifiers default delete := by
  rw [Evaluator.getMemory, Evaluator.getMemory, memory_eq_of_unnamed he]

/-- A leaf does without names what it does with them. -/
theorem Component.IsLeaf.run_unnamed {c : Component} (hc : c.IsLeaf) (h : c.IgnoresNames)
    (rounds : Nat) (register : Record) :
    EndAlike (c.run rounds e register) (c.unnamed.run rounds e' register) := by
  have hmemory := memory_eq_of_unnamed he
  cases c with
  | action name view a => exact runAction_alike name "" view a e e' register
  | executable name view x =>
    have hx : x.IgnoresNames := h
    exact runExecutable_alike hx he name "" view register
  | exit name => exact EndAlike.refl _
  | log name spec =>
    obtain ⟨level, _ | logger, message, opening, closing, includeInput⟩ := spec
    · exact EndAlike.act_bind (EndAlike.emit _ _) fun _ => EndAlike.refl _
    · exact EndAlike.refl _
  | setMemory name key getKey instruction =>
    have hrun : runSetMemory key getKey instruction e register =
        runSetMemory key getKey instruction e' register := by
      simp only [runSetMemory, Evaluator.setMemory, hmemory]
    rw [Component.unnamed, Component.run, Component.run, hrun]
    exact EndAlike.refl _
  | getMemory name identifiers default instruction =>
    have hrun : runGetMemory identifiers default instruction e register =
        runGetMemory identifiers default instruction e' register := by
      simp only [runGetMemory, getMemory_eq_of_unnamed he]
    rw [Component.unnamed, Component.run, Component.run, hrun]
    exact EndAlike.refl _
  | deleteMemory name keys =>
    have hrun : runDeleteMemory keys e register = runDeleteMemory keys e' register := by
      simp only [runDeleteMemory, Evaluator.flushMemory, Evaluator.deleteMemory, hmemory]
    rw [Component.unnamed, Component.run, Component.run, hrun]
    exact EndAlike.refl _
  | schema | loop | forEach | filter | switch | evaluator => cases hc

end

-- The second run is of the tree without names, but its evaluators still get some from the
-- constructs.  So the two evaluators are any that differ in names only.
mutual

/-- A tree does without names what it does with them. -/
theorem run_unnamed (rounds : Nat) (c : Component)
    (h : c.Every Component.IgnoresNames Predicate.IgnoresNames) {e e' : Evaluator}
    (he : e.unnamed = e'.unnamed) (register : Record) :
    EndAlike (c.run rounds e register) (c.unnamed.run rounds e' register) := by
  match c with
  | .schema name steps => exact runSteps_unnamed rounds steps h.2 he name "" 0 register
  | .loop name body condition bound =>
    have hbody (r : Record) :=
      EndAlike.within (e.child name) (e'.child "")
        (run_unnamed rounds body h.2.1 (unnamed_child_eq he name "") r)
    have hrounds := EndAlike.congruence.sameRounds hbody
      (holds_unnamed rounds condition h.2.2 he) bound rounds 0 register
    refine hrounds.bind fun finish => ?_
    exact (EndAlike.emit _ _).bind fun _ => EndAlike.refl _
  | .forEach name body getKey setKey =>
    have hbody (r : Record) :=
      EndAlike.within (e.child name) (e'.child "")
        (run_unnamed rounds body h.2 (unnamed_child_eq he name "") r)
    refine (EndAlike.refl _).bind fun items => ?_
    refine (EndAlike.congruence.each hbody fun _ _ => EndAlike.refl _).bind fun results => ?_
    cases results with
    | none => exact EndAlike.refl _
    | some results => exact EndAlike.refl _
  | .filter name condition getKey setKey =>
    refine (EndAlike.refl _).bind fun items => ?_
    refine (EndAlike.congruence.kept (check_unnamed rounds condition h.2 he)
      fun _ _ => EndAlike.refl _).bind fun kept => EndAlike.refl _
  | .switch name branches => exact runBranches_unnamed rounds branches h.2 he name "" 0 register
  | .evaluator context body =>
    exact EndAlike.within context context.unnamed
      (run_unnamed rounds body h.2 context.unnamed_unnamed.symm register)
  | .action .. | .executable .. | .exit _ | .log .. | .setMemory .. | .getMemory ..
  | .deleteMemory .. =>
    refine Component.IsLeaf.run_unnamed he ?_ h rounds register
    exact True.intro

/-- A schema gives without names what it gives with them. -/
theorem runSteps_unnamed (rounds : Nat) (steps : List Component)
    (h : Component.EveryStep Component.IgnoresNames Predicate.IgnoresNames steps)
    {e e' : Evaluator} (he : e.unnamed = e'.unnamed) (name name' : String) (index : Nat)
    (register : Record) :
    EndAlike (runSteps rounds name steps e index register)
      (runSteps rounds name' (Component.unnamedSteps steps) e' index register) := by
  match steps with
  | [] => exact EndAlike.refl _
  | step :: rest =>
    rw [Component.unnamedSteps, runSteps_cons, runSteps_cons]
    refine EndAlike.step (fastExit_eq_of_unnamed he) name name' index _ _ register
      (run_unnamed rounds step h.1 he register) fun r => ?_
    exact runSteps_unnamed rounds rest h.2 he name name' (index + 1) r

/-- So does a switch. -/
theorem runBranches_unnamed (rounds : Nat) (branches : List Branch)
    (h : Branch.EveryOf Component.IgnoresNames Predicate.IgnoresNames branches)
    {e e' : Evaluator} (he : e.unnamed = e'.unnamed) (name name' : String) (index : Nat)
    (register : Record) :
    EndAlike (runBranches rounds name branches e index register)
      (runBranches rounds name' (Branch.unnamedAll branches) e' index register) := by
  match branches with
  | [] => exact EndAlike.refl _
  | .mk own condition body exits :: rest =>
    have hrest (r : Record) := runBranches_unnamed rounds rest h.2 he name name' (index + 1) r
    refine (offer_unnamed rounds (.mk own condition body exits) h.1 he register).bind ?_
    intro outcome
    match outcome with
    | .skipped r => exact hrest r
    | .taken (.exitLoop r) => exact EndAlike.refl _
    | .taken (.next r) =>
      refine (EndAlike.emit _ _).bind fun _ => ?_
      cases exits with
      | true => exact EndAlike.refl _
      | false => exact hrest r

/-- A branch is taken or skipped whatever its name. -/
theorem offer_unnamed (rounds : Nat) (branch : Branch)
    (h : branch.Every Component.IgnoresNames Predicate.IgnoresNames) {e e' : Evaluator}
    (he : e.unnamed = e'.unnamed) (register : Record) :
    EndAlike (branch.offer rounds e register) (branch.unnamed.offer rounds e' register) := by
  match branch with
  | .mk name condition body exits =>
    refine (holds_unnamed rounds condition h.1 he register).bind fun holds => ?_
    split
    · exact (EndAlike.within (e.child name) (e'.child "")
        (run_unnamed rounds body h.2 (unnamed_child_eq he name "") register)).bind
          fun outcome => EndAlike.refl _
    · exact EndAlike.refl _

theorem holds_unnamed (rounds : Nat) (condition : Option Predicate)
    (h : Predicate.EveryOption Component.IgnoresNames Predicate.IgnoresNames condition)
    {e e' : Evaluator} (he : e.unnamed = e'.unnamed) (register : Record) :
    EndAlike (holds rounds condition e register)
      (holds rounds (Predicate.unnamedOption condition) e' register) := by
  match condition with
  | none => exact EndAlike.refl _
  | some p => exact check_unnamed rounds p h he register

/-- A predicate gives without names what it gives with them. -/
theorem check_unnamed (rounds : Nat) (p : Predicate)
    (h : p.Every Component.IgnoresNames Predicate.IgnoresNames) {e e' : Evaluator}
    (he : e.unnamed = e'.unnamed) (register : Record) :
    EndAlike (p.check rounds e register) (p.unnamed.check rounds e' register) := by
  match p with
  | .test check => exact h register e e' he
  | .not p => exact (check_unnamed rounds p h.2 he register).bind fun holds => EndAlike.refl _
  | .all ps => exact checkAll_unnamed rounds ps h.2 he register
  | .condition name validator body state =>
    have hbody (r : Record) :=
      EndAlike.within (e.child name) (e'.child "")
        (run_unnamed rounds body h.2.2 (unnamed_child_eq he name "") r)
    have hvalidator (outcome : Outcome) := check_unnamed rounds validator h.2.1 he outcome.register
    cases state with
    | none => exact (EndAlike.refl _).bind fun r => (hbody r).bind hvalidator
    | some identifiers =>
      refine EndAlike.bind ?_ fun r => (hbody r).bind hvalidator
      rw [getMemory_eq_of_unnamed he]
      exact EndAlike.refl _

/-- All of several predicates hold whatever the names in them. -/
theorem checkAll_unnamed (rounds : Nat) (ps : List Predicate)
    (h : Predicate.EveryOf Component.IgnoresNames Predicate.IgnoresNames ps)
    {e e' : Evaluator} (he : e.unnamed = e'.unnamed) (register : Record) :
    EndAlike (checkAll rounds ps e register)
      (checkAll rounds (Predicate.unnamedAll ps) e' register) := by
  match ps with
  | [] => exact EndAlike.refl _
  | p :: rest =>
    refine (check_unnamed rounds p h.1 he register).bind fun holds => ?_
    split
    · exact checkAll_unnamed rounds rest h.2 he register
    · exact EndAlike.refl _

end

/-! ## The result -/

section

variable {c c' : Component} {e e' : Evaluator} {register : Record}

/-- Trees that differ in names only run alike. -/
theorem run_alike (hc : c.unnamed = c'.unnamed) (he : e.unnamed = e'.unnamed)
    (h : c.Every Component.IgnoresNames Predicate.IgnoresNames)
    (h' : c'.Every Component.IgnoresNames Predicate.IgnoresNames) (rounds : Nat)
    (register : Record) : EndAlike (c.run rounds e register) (c'.run rounds e' register) := by
  have hfirst := run_unnamed rounds c h he register
  have hsecond : EndAlike (c'.run rounds e' register) (c'.unnamed.run rounds e' register) :=
    run_unnamed rounds c' h' rfl register
  rw [hc] at hfirst
  exact hfirst.trans hsecond.symm

/-- What one of two trees ends with, the other ends with, up to the names in an error. -/
theorem ends_alike (h : ∀ rounds, EndAlike (c.run rounds e register) (c'.run rounds e' register))
    (w w' : World) :
    (∀ outcome, c.Ends e register w (.ok outcome) w' → c'.Ends e' register w (.ok outcome) w') ∧
    ∀ error, c.Ends e register w (.error error) w' →
      ∃ error', c'.Ends e' register w (.error error') w' ∧ error.SameShape error' := by
  obtain ⟨hok, herror⟩ := AlikeUpTo.ends h w w'
  refine ⟨hok, fun error hends => ?_⟩
  obtain ⟨error', hends', hsame⟩ := herror error hends
  exact ⟨error', hends', ExecutionError.sameShape_of_unnamed hsame⟩

/-- Names decide nothing.  Two trees that differ in names only, in evaluators that differ in
names only, end in the same way from every register in every world, if no unit of theirs
depends on the name of its evaluator: both give the same outcome in the same world, or both
fail in the same world, with layers of the same kinds and of the same steps around the same
cause. -/
theorem names_are_labels (hc : c.unnamed = c'.unnamed) (he : e.unnamed = e'.unnamed)
    (h : c.Every Component.IgnoresNames Predicate.IgnoresNames)
    (h' : c'.Every Component.IgnoresNames Predicate.IgnoresNames) (register : Record)
    (w w' : World) :
    (∀ outcome, c.Ends e register w (.ok outcome) w' ↔ c'.Ends e' register w (.ok outcome) w') ∧
    (∀ error, c.Ends e register w (.error error) w' →
      ∃ error', c'.Ends e' register w (.error error') w' ∧ error.SameShape error') ∧
    ∀ error', c'.Ends e' register w (.error error') w' →
      ∃ error, c.Ends e register w (.error error) w' ∧ error.SameShape error' := by
  have halike (rounds : Nat) := run_alike hc he h h' rounds register
  obtain ⟨hok, herror⟩ := ends_alike halike w w'
  obtain ⟨hok', herror'⟩ := ends_alike (fun rounds => (halike rounds).symm) w w'
  refine ⟨fun outcome => ⟨hok outcome, hok' outcome⟩, herror, fun error' hends => ?_⟩
  obtain ⟨error, hends, hsame⟩ := herror' error' hends
  exact ⟨error, hends, hsame.symm⟩

end

/-- An executable that fails, in a loop on the elements of a list, under names of one's
choice. -/
def failingLoop (schema each loop unit check : String) : Component :=
  .schema schema
    [.forEach each
      (.loop loop
        (.executable unit (.root defaultOutputKey .inplace)
          { Stock.broken (.other "broken") with name := unit })
        (some (.condition check Stock.always (.log check (.make .info)) none)) none)
      "xs" "xs"]

theorem failingLoop_ignoresNames (schema each loop unit check : String) :
    (failingLoop schema each loop unit check).Every Component.IgnoresNames
      Predicate.IgnoresNames := by
  refine ⟨trivial, ⟨trivial, trivial, ?_, trivial, ?_, trivial⟩, trivial⟩
  · exact fun _ _ _ _ => EndAlike.refl _
  · exact fun _ _ _ _ => EndAlike.refl _

/-- Under both sets of names, nothing is done to an empty list, and the first element of
another one fails. -/
theorem failingLoop_names_are_labels :
    (failingLoop "A" "B" "C" "D" "E").unnamed = (failingLoop "V" "W" "X" "Y" "Z").unnamed ∧
    (Evaluator.make "F" .off true 0).unnamed = (Evaluator.make "G" .off true 0).unnamed ∧
    (failingLoop "V" "W" "X" "Y" "Z").Ends (.make "G" .off true 0) (listOf []) World.empty
      (.ok (.next (listOf []))) World.empty ∧
    ∃ error,
      (failingLoop "A" "B" "C" "D" "E").Ends (.make "F" .off true 0) (listOf [∅]) World.empty
        (.error error) World.empty ∧
      error.contextChain = ["A", "F.B", "F.B.C", "D"] ∧
      ∃ error',
        (failingLoop "V" "W" "X" "Y" "Z").Ends (.make "G" .off true 0) (listOf [∅]) World.empty
          (.error error') World.empty ∧
        error.SameShape error' := by
  have htrees : (failingLoop "A" "B" "C" "D" "E").unnamed =
      (failingLoop "V" "W" "X" "Y" "Z").unnamed := rfl
  have hevaluators : (Evaluator.make "F" .off true 0).unnamed =
      (Evaluator.make "G" .off true 0).unnamed := rfl
  have hempty : (failingLoop "A" "B" "C" "D" "E").Ends (.make "F" .off true 0) (listOf [])
      World.empty (.ok (.next (listOf []))) World.empty := ⟨_, 1, rfl⟩
  have hone : (failingLoop "A" "B" "C" "D" "E").Ends (.make "F" .off true 0) (listOf [∅])
      World.empty (.error _) World.empty := ⟨_, 1, rfl⟩
  have hlabels (register : Record) := names_are_labels htrees hevaluators
    (failingLoop_ignoresNames _ _ _ _ _) (failingLoop_ignoresNames _ _ _ _ _) register
    World.empty World.empty
  exact ⟨htrees, hevaluators, ((hlabels _).1 _).mp hempty, _, hone, rfl, (hlabels _).2.1 _ hone⟩

/-- A filter that keeps what it is asked about under one name only, in an evaluator of some
name. -/
def namedFilter (name : String) : Component :=
  .evaluator (.make name .off true 1) (askingFilter fun e => pure (e.name = "A"))

/-- It is not enough that no executable depends on names: a test may. -/
theorem labels_need_tests :
    ¬ ∀ (c c' : Component) (e e' : Evaluator) (register : Record) (w w' : World)
      (outcome : Outcome), c.unnamed = c'.unnamed → e.unnamed = e'.unnamed →
      c.Every Component.IgnoresNames (fun _ => True) →
      c'.Every Component.IgnoresNames (fun _ => True) →
      c.Ends e register w (.ok outcome) w' → c'.Ends e' register w (.ok outcome) w' := by
  intro h
  have hkept : (namedFilter "A").Ends (.make "Root" .off true 0) (listOf [∅]) World.empty
      (.ok (.next (listOf [∅]))) World.empty := ⟨_, 0, rfl⟩
  have hdropped : (namedFilter "B").Ends (.make "Root" .off true 0) (listOf [∅]) World.empty
      (.ok (.next (listOf []))) World.empty := ⟨_, 0, rfl⟩
  have hsame := h (namedFilter "A") (namedFilter "B") _ _ _ _ _ _ rfl rfl
    ⟨trivial, trivial, trivial⟩ ⟨trivial, trivial, trivial⟩ hkept
  have houtcome := Except.ok.inj (hsame.unique hdropped).1
  exact listOf_one_ne_none (Outcome.next.inj houtcome)

end Pipeline
