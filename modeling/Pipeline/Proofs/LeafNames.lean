import Pipeline.Proofs.Halting
import Pipeline.Proofs.LeafErrors
import Pipeline.Stock.Executable

/-!
# Whose name a leaf's failure carries

A leaf on a view fails in one of a few ways, and each puts a name around its cause.  An
action has one name for all of them.  An executable has two: the leaf's display name stands
around a key that is missing and around data of the wrong form, and the executable's own
name around what went wrong in its work (`ExecutableFailure`).  The two agree until the leaf
is renamed, which leaves the executable's own name as it is.
-/

namespace Pipeline

/-! ## The ways to fail -/

/-- What can go wrong when an executable works on a mapping: the input does not match its
schema, the unit itself fails, or its output does not match its schema. -/
inductive Executable.Failure (x : Executable) (data : Record) (e : Evaluator) :
    ExecutionError → Prop
  | input {cause : ExecutionError} : x.input.apply data = .error cause → Failure x data e cause
  | invocation {input : Record} {w : World} {cause : ExecutionError} :
      x.input.apply data = .ok input → (x.invoke input e w).result = .error cause →
        Failure x data e cause
  | output {input output : Record} {w : World} {cause : ExecutionError} :
      x.input.apply data = .ok input → (x.invoke input e w).result = .ok output →
        x.output.apply output = .error cause → Failure x data e cause

/-- The value is a mapping, or a list with the mapping among its elements. -/
def Value.Offers (v : Value) (data : Record) : Prop :=
  v = .mapping data ∨ ∃ items, v = .list items ∧ .mapping data ∈ items

/-- The errors of an executable on a view: what the view reads is missing, or is neither a
mapping nor a list, or is a list with an element that is no mapping, or the executable
failed on a mapping that was read. -/
inductive ExecutableFailure (name : String) (view : View) (x : Executable) (e : Evaluator)
    (register : Record) : ExecutionError → Prop
  | unselected {cause : ExecutionError} :
      view.select register = .error cause →
        ExecutableFailure name view x e register (.executable name cause)
  | unprocessable {v : Value} :
      view.select register = .ok v → (∀ data, v ≠ .mapping data) → (∀ items, v ≠ .list items) →
        ExecutableFailure name view x e register
          (.executable name (.invalidInput (.notProcessable v.kind)))
  | element {items : List Value} {item : Value} {cause : ExecutionError} :
      view.select register = .ok (.list items) → item ∈ items →
        item.expectRecord = .error cause →
          ExecutableFailure name view x e register (.executable name cause)
  | work {v : Value} {data : Record} {cause : ExecutionError} :
      view.select register = .ok v → v.Offers data → x.Failure data e cause →
        ExecutableFailure name view x e register (.executable x.name cause)

section

variable {name : String} {view : View} {x : Executable} {e : Evaluator} {register : Record}

/-- A failure in the work of an executable gets the executable's own name. -/
theorem Executable.execute_failure (x : Executable) (data : Record) (e : Evaluator) :
    (x.execute data e).Fails fun error =>
      ∃ cause, error = .executable x.name cause ∧ x.Failure data e cause := by
  refine Effect.Fails.mapError (P := x.Failure data e) ?_ fun cause h => ⟨cause, rfl, h⟩
  refine Effect.Fails.bind_given (.ofExcept fun _ h => .input h) fun _ input hinput => ?_
  refine Effect.Fails.bind_given (fun _ _ h => .invocation hinput h) fun _ output houtput => ?_
  exact .ofExcept fun _ h => .output hinput houtput h

/-- An executable fails on a list at one of its elements. -/
theorem executeEach_failure (name : String) (x : Executable) (e : Evaluator)
    (items : List Value) :
    (executeEach name x e items).Fails fun error =>
      ∃ item ∈ items,
        (∃ cause, item.expectRecord = .error cause ∧ error = .executable name cause) ∨
        ∃ data cause, item = .mapping data ∧ error = .executable x.name cause ∧
          x.Failure data e cause := by
  induction items with
  | nil => exact Effect.Fails.pure _
  | cons item rest ih =>
    refine Effect.Fails.mapError_bind (fun cause h => ?_) fun record hrecord => ?_
    · exact ⟨item, .head _, .inl ⟨cause, h, rfl⟩⟩
    have hitem : item = .mapping record := Value.eq_of_expectRecord hrecord
    refine Effect.Fails.bind ?_ fun output => Effect.Fails.bind ?_ fun results => .pure _
    · refine (x.execute_failure record e).mono ?_
      rintro _ ⟨cause, rfl, hfailure⟩
      exact ⟨item, .head _, .inr ⟨record, cause, hitem, rfl, hfailure⟩⟩
    · refine ih.mono ?_
      rintro _ ⟨other, hmem, hfailure⟩
      exact ⟨other, .tail _ hmem, hfailure⟩

/-- An executable fails on what was read in one of the ways listed. -/
theorem executeSelected_failure {v : Value} (hselect : view.select register = .ok v) :
    (executeSelected name x e v).Fails (ExecutableFailure name view x e register) := by
  cases v with
  | mapping data =>
    refine Effect.Fails.bind ?_ fun output => Effect.Fails.pure _
    refine (x.execute_failure data e).mono ?_
    rintro _ ⟨cause, rfl, hfailure⟩
    exact .work hselect (.inl rfl) hfailure
  | list items =>
    refine Effect.Fails.bind ?_ fun results => Effect.Fails.pure _
    refine (executeEach_failure name x e items).mono ?_
    rintro _ ⟨item, hmem, ⟨cause, hcause, rfl⟩ | ⟨data, cause, rfl, rfl, hfailure⟩⟩
    · exact .element hselect hmem hcause
    · exact .work hselect (.inr ⟨items, rfl, hmem⟩) hfailure
  | null | bool | number | string =>
    refine Effect.Fails.throw (.unprocessable hselect ?_ ?_)
    · intro _ h
      cases h
    · intro _ h
      cases h

theorem runExecutable_failure :
    (runExecutable name view x e register).Fails (ExecutableFailure name view x e register) := by
  refine Effect.Fails.mapError_bind (fun _ => .unselected) fun v hselect => ?_
  refine (executeSelected_failure hselect).bind fun (output, items) => ?_
  exact (Effect.Fails.emit _).bind fun _ => Effect.Fails.pure _

theorem runAction_failure {a : Action} :
    (runAction name view a e register).Fails fun error =>
      ∃ cause, error = .action name cause ∧
        (view.select register = .error cause ∨
          ∃ v, view.select register = .ok v ∧ a.execute v = .error cause) := by
  refine Effect.Fails.mapError_bind (fun cause h => ⟨cause, rfl, .inl h⟩) fun v hselect => ?_
  refine Effect.Fails.mapError_bind (fun cause h => ⟨cause, rfl, .inr ⟨v, hselect, h⟩⟩) ?_
  exact fun output _ => (Effect.Fails.emit _).bind fun _ => Effect.Fails.pure _

/-- Under the executable's own name, every failure carries it. -/
theorem ExecutableFailure.named {error : ExecutionError}
    (h : ExecutableFailure name view x e register error) (hname : x.name = name) :
    ∃ cause, error = .executable name cause := by
  cases h with
  | unselected _ => exact ⟨_, rfl⟩
  | unprocessable _ _ _ => exact ⟨_, rfl⟩
  | element _ _ _ => exact ⟨_, rfl⟩
  | work _ _ _ => exact ⟨_, by rw [hname]⟩

end

/-! ## The result -/

/-- The failure of an action carries the display name of the leaf, around a missing key or the
action's own error.  That of an executable carries the display name around a missing key and
data of the wrong form, and the executable's own name around an error of its work; so it carries
the display name if that is the executable's own. -/
theorem leaf_failures_named {c : Component} {e : Evaluator} {register : Record} {w w' : World}
    {error : ExecutionError} (hends : c.Ends e register w (.error error) w') :
    (∀ name view a, c = .action name view a →
      ∃ cause, error = .action name cause ∧
        (view.select register = .error cause ∨
          ∃ v, view.select register = .ok v ∧ a.execute v = .error cause)) ∧
    ∀ name view x, c = .executable name view x →
      ExecutableFailure name view x e register error ∧
        (x.name = name → ∃ cause, error = .executable name cause) := by
  obtain ⟨events, rounds, hrun⟩ := hends
  constructor
  · rintro name view a rfl
    exact Process.Fails.ofEffect runAction_failure hrun
  · rintro name view x rfl
    have hfailure : ExecutableFailure name view x e register error :=
      Process.Fails.ofEffect runExecutable_failure hrun
    exact ⟨hfailure, hfailure.named⟩

/-- A renamed action that reads a key. -/
def labelledAction : Component := .action "Label" ⟨some "k", none, "output", .local⟩ (.flush none)

/-- An executable under its own name that reads a key. -/
def ownNamed : Component :=
  .executable Stock.opaqueUnit.name ⟨some "k", none, "output", .local⟩ Stock.opaqueUnit

/-- The key is missing, and it has a list whose second element is no mapping. -/
theorem labelled_failures_named :
    (labelledAction.Ends (.make "Root" .off true 0) ∅ World.empty
        (.error (.action "Label" (.missingKey "k"))) World.empty ∧
      ∃ cause, ExecutionError.action "Label" (.missingKey "k") = .action "Label" cause) ∧
    ownNamed.Ends (.make "Root" .off true 0)
        ((∅ : Record).insert "k" (.list [.mapping ∅, .null])) World.empty
        (.error (.executable "Opaque" (.invalidInput (.notMapping .null)))) World.empty ∧
      ∃ cause, ExecutionError.executable "Opaque" (.invalidInput (.notMapping .null)) =
        .executable "Opaque" cause := by
  have hmissing : labelledAction.Ends (.make "Root" .off true 0) ∅ World.empty
      (.error (.action "Label" (.missingKey "k"))) World.empty := ⟨_, 0, rfl⟩
  have hlist : ownNamed.Ends (.make "Root" .off true 0)
      ((∅ : Record).insert "k" (.list [.mapping ∅, .null])) World.empty
      (.error (.executable "Opaque" (.invalidInput (.notMapping .null)))) World.empty :=
    ⟨_, 0, rfl⟩
  obtain ⟨cause, hcause, _⟩ := (leaf_failures_named hmissing).1 _ _ _ rfl
  exact ⟨⟨hmissing, cause, hcause⟩, hlist, ((leaf_failures_named hlist).2 _ _ _ rfl).2 rfl⟩

/-- A renamed executable keeps its own name around the errors of its work. -/
theorem renamed_executable_keeps_name :
    ((Component.ofExecutable Stock.greet).rename "Greeter").name = "Greeter" ∧
    ∃ cause,
      ((Component.ofExecutable Stock.greet).rename "Greeter").Ends (.make "Root" .off true 0)
        ((∅ : Record).insert "age" (.int 3)) World.empty (.error (.executable "Greet" cause))
        World.empty ∧
      ∀ cause', ExecutionError.executable "Greet" cause ≠ .executable "Greeter" cause' := by
  have hrun : ((Component.ofExecutable Stock.greet).rename "Greeter").Ends
      (.make "Root" .off true 0) ((∅ : Record).insert "age" (.int 3)) World.empty
      (.error (.executable "Greet" _)) World.empty := ⟨_, 0, rfl⟩
  refine ⟨rfl, _, hrun, fun cause' h => ?_⟩
  injection h with hname _
  exact absurd hname (by decide)

end Pipeline
