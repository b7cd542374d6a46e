import Pipeline.Interpreter
import Pipeline.Proofs.Process

/-!
# Leaves

A leaf runs no other component, and so it always ends.  It is made of answers at hand,
reports, and its own work: what an executable does, or an action on memory.
`LeafLogic` lists what a property of actions has to keep, and `LeafLogic.leaf` then has
it of the leaf.

An executable that does the same work in two evaluators gives the same outputs in both
(`executeSelected_congr`).
-/

namespace Pipeline

/-- A component that runs no other component. -/
def Component.IsLeaf : Component → Prop
  | .action .. | .executable .. | .exit _ | .log .. | .setMemory .. | .getMemory ..
  | .deleteMemory .. => True
  | _ => False

/-- A leaf has no loop to go round. -/
theorem Component.IsLeaf.run_eq {c : Component} (h : c.IsLeaf) (n m : Nat) (e : Evaluator)
    (register : Record) : c.run n e register = c.run m e register := by
  cases c with
  | action | executable | exit | log | setMemory | getMemory | deleteMemory => rfl
  | schema | loop | forEach | filter | switch | evaluator => cases h

/-! ## One executable in two evaluators -/

section

variable {x : Executable} {e e' : Evaluator} (h : ∀ data, x.invoke data e' = x.invoke data e)

include h

/-- An executable does in two evaluators what its work does there. -/
theorem Executable.execute_congr (data : Record) : x.execute data e' = x.execute data e := by
  unfold Executable.execute
  simp only [h]

theorem executeEach_congr (name : String) (items : List Value) :
    executeEach name x e' items = executeEach name x e items := by
  induction items with
  | nil => rfl
  | cons item rest ih =>
    unfold executeEach
    simp only [Executable.execute_congr h, ih]

theorem executeSelected_congr (name : String) (v : Value) :
    executeSelected name x e' v = executeSelected name x e v := by
  cases v with
  | mapping record =>
    unfold executeSelected
    simp only [Executable.execute_congr h record]
  | list items =>
    unfold executeSelected
    simp only [executeEach_congr h name items]
  | null | bool | number | string => rfl

end

/-! ## What every part of a leaf keeps -/

/-- The message is one that leaves report. -/
def Message.OfLeaf : Message → Prop
  | .actionExecuted .. | .executableExecuted .. | .line .. => True
  | _ => False

/-- A property of actions that the parts of a leaf have and sequences keep. -/
structure LeafLogic (P : {α : Type} → Act α → Prop) : Prop where
  answer : ∀ {α : Type} (y : Except ExecutionError α), P (Effect.ofExcept y : Act α)
  report : ∀ (l : Logger) (level : Level) (message : Message), message.OfLeaf →
    P (Effect.emit (l.logAt level message) : Act Unit)
  bind : ∀ {α β : Type} {x : Act α} {f : α → Act β}, P x → (∀ a, P (f a)) → P (x >>= f)
  mapError : ∀ {α : Type} {x : Act α} (g : ExecutionError → ExecutionError), P x →
    P (x.mapError g)

/-- The property holds of the component's own work in an evaluator. -/
def Component.WorkKeeps (P : {α : Type} → Act α → Prop) (e : Evaluator) : Component → Prop
  | .executable _ _ x => ∀ data, P (x.invoke data e)
  | .setMemory _ key .. => ∀ value, P (World.onMemory e.memory (Memory.set key value))
  | .getMemory _ identifiers default instruction =>
    ∀ register, P (e.getMemory register identifiers default (instruction = .pop))
  | .deleteMemory _ keys => P e.flushMemory ∧ P (e.deleteMemory keys)
  | _ => True

namespace LeafLogic

variable {P : {α : Type} → Act α → Prop} (K : LeafLogic P)

include K

theorem pure {α : Type} (a : α) : P (Pure.pure a : Act α) := K.answer (.ok a)

theorem throw {α : Type} (error : ExecutionError) : P (MonadExcept.throw error : Act α) :=
  K.answer (.error error)

/-- An action on a view is answers at hand, and a report. -/
theorem runAction (name : String) (view : View) (action : Action) (e : Evaluator)
    (register : Record) : P (runAction name view action e register) := by
  refine K.bind (K.answer _) fun data => K.bind (K.answer _) fun output => ?_
  exact K.bind (K.report _ _ _ trivial) fun _ => K.pure _

section

variable {x : Executable} {e : Evaluator} (hx : ∀ data, P (x.invoke data e))

include hx

/-- An executable is its work between two checks of the data. -/
theorem execute (data : Record) : P (x.execute data e) := by
  refine K.mapError _ (K.bind (K.answer _) fun input => ?_)
  exact K.bind (hx input) fun output => K.answer _

theorem executeEach (name : String) (items : List Value) : P (executeEach name x e items) := by
  induction items with
  | nil => exact K.pure _
  | cons item rest ih =>
    refine K.bind (K.answer _) fun record => K.bind (K.execute hx record) fun output => ?_
    exact K.bind ih fun results => K.pure _

theorem executeSelected (name : String) (v : Value) : P (executeSelected name x e v) := by
  cases v with
  | mapping record => exact K.bind (K.execute hx record) fun output => K.pure _
  | list items => exact K.bind (K.executeEach hx name items) fun results => K.pure _
  | null | bool | number | string => exact K.throw _

theorem runExecutable (name : String) (view : View) (register : Record) :
    P (runExecutable name view x e register) := by
  refine K.bind (K.answer _) fun data => ?_
  refine K.bind (K.executeSelected hx name data) fun (output, items) => ?_
  exact K.bind (K.report _ _ _ trivial) fun _ => K.pure _

end

theorem setMemory {e : Evaluator} {key : String}
    (h : ∀ value, P (World.onMemory e.memory (Memory.set key value))) (register : Record)
    (getKey : Option String) : P (e.setMemory register getKey key) := by
  cases getKey with
  | none => exact K.bind (K.pure _) h
  | some k =>
    cases hget : register.get? k with
    | none =>
      simp only [Evaluator.setMemory, hget]
      exact K.bind (K.throw (.missingKey k)) h
    | some v =>
      simp only [Evaluator.setMemory, hget]
      exact K.bind (K.pure v) h

/-- A leaf is an action, and has the property when its own work has it. -/
theorem leaf {c : Component} (hc : c.IsLeaf) {e : Evaluator} (h : c.WorkKeeps P e)
    (rounds : Nat) (register : Record) :
    ∃ x : Act Outcome, c.run rounds e register = Process.ofEffect x ∧ P x := by
  cases c with
  | action name view action => exact ⟨_, rfl, K.runAction name view action e register⟩
  | executable name view x =>
    have hx : ∀ data, P (x.invoke data e) := h
    exact ⟨_, rfl, K.runExecutable hx name view register⟩
  | exit name => exact ⟨_, rfl, K.pure (Outcome.exitLoop register)⟩
  | log name spec =>
    obtain ⟨level, _ | logger, message, opening, closing, includeInput⟩ := spec
    · exact ⟨_, rfl, K.bind (K.report e.logger level (.line _) trivial) fun _ => K.pure _⟩
    · exact ⟨_, rfl, K.bind (K.report logger level (.line _) trivial) fun _ => K.pure _⟩
  | setMemory name key getKey instruction =>
    have hset : ∀ value, P (World.onMemory e.memory (Memory.set key value)) := h
    refine ⟨_, rfl, K.bind (K.setMemory hset register getKey) fun _ => ?_⟩
    cases instruction with
    | set => exact K.pure _
    | move => cases getKey <;> exact K.pure _
  | getMemory name identifiers default instruction =>
    have hget : ∀ register,
        P (e.getMemory register identifiers default (instruction = .pop)) := h
    exact ⟨_, rfl, K.bind (hget register) fun _ => K.pure _⟩
  | deleteMemory name keys =>
    have hdelete : P e.flushMemory ∧ P (e.deleteMemory keys) := h
    refine ⟨runDeleteMemory keys e register, rfl, ?_⟩
    unfold runDeleteMemory
    cases keys.isEmpty with
    | true => exact K.bind hdelete.1 fun _ => K.pure _
    | false => exact K.bind hdelete.2 fun _ => K.pure _
  | schema | loop | forEach | filter | switch | evaluator => cases hc

end LeafLogic

end Pipeline
