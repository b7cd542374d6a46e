import Pipeline.Log.Message

/-!
# Effects

An *effect* acts on a state, emits events, and ends with a value or an error.
What it did to the state before an error stays done.  A *process* is an effect
that may also run for ever; it then gives no answer at all, so that running for
ever is neither a value nor an error.

Both are written in `do` notation.  The events of a sequence are those of its
parts in order.
-/

namespace Pipeline

variable {σ τ ε δ α β : Type}

/-- The end of an effect: its answer, the events it emitted, and the new state. -/
structure Run (σ ε α : Type) where
  result : Except ε α
  events : List Event
  state : σ

namespace Run

/-- The run with events before its own. -/
def after (events : List Event) (r : Run σ ε α) : Run σ ε α :=
  { r with events := events ++ r.events }

/-- The run with its error put into another form. -/
def mapError (f : ε → δ) (r : Run σ ε α) : Run σ δ α :=
  ⟨r.result.mapError f, r.events, r.state⟩

@[simp] theorem after_nil (r : Run σ ε α) : r.after [] = r := rfl

@[simp] theorem after_after (es fs : List Event) (r : Run σ ε α) :
    (r.after fs).after es = r.after (es ++ fs) := by
  simp [after, List.append_assoc]

end Run

/-- An action on a state that always ends. -/
def Effect (σ ε α : Type) := σ → Run σ ε α

/-- An action on a state that may run for ever. -/
def Process (σ ε α : Type) := σ → Option (Run σ ε α)

namespace Effect

/-- Do the first effect, then, if it gave a value, the one that follows. -/
def andThen (x : Effect σ ε α) (f : α → Effect σ ε β) : Effect σ ε β := fun s =>
  match x s with
  | ⟨.ok a, events, s'⟩ => (f a s').after events
  | ⟨.error e, events, s'⟩ => ⟨.error e, events, s'⟩

instance : Monad (Effect σ ε) where
  pure a := fun s => ⟨.ok a, [], s⟩
  bind := andThen

instance : MonadExcept ε (Effect σ ε) where
  throw e := fun s => ⟨.error e, [], s⟩
  tryCatch x handle := fun s =>
    match x s with
    | ⟨.ok a, events, s'⟩ => ⟨.ok a, events, s'⟩
    | ⟨.error e, events, s'⟩ => (handle e s').after events

/-- The state. -/
def get : Effect σ ε σ := fun s => ⟨.ok s, [], s⟩

/-- Replace the state. -/
def set (s : σ) : Effect σ ε Unit := fun _ => ⟨.ok (), [], s⟩

/-- Emit events. -/
def emit (events : List Event) : Effect σ ε Unit := fun s => ⟨.ok (), events, s⟩

/-- An answer that is at hand. -/
def ofExcept (x : Except ε α) : Effect σ ε α := fun s => ⟨x, [], s⟩

/-- Put the error of an effect into another form. -/
def mapError (f : ε → δ) (x : Effect σ ε α) : Effect σ δ α := fun s => (x s).mapError f

/-- Act on a part of the state. -/
def zoom (get : σ → τ) (set : σ → τ → σ) (x : Effect τ ε α) : Effect σ ε α := fun s =>
  let r := x (get s)
  ⟨r.result, r.events, set s r.state⟩

end Effect

namespace Process

/-- Do the first process, then, if it gave a value, the one that follows. -/
def andThen (x : Process σ ε α) (f : α → Process σ ε β) : Process σ ε β := fun s =>
  match x s with
  | none => none
  | some ⟨.ok a, events, s'⟩ => (f a s').map (·.after events)
  | some ⟨.error e, events, s'⟩ => some ⟨.error e, events, s'⟩

instance : Monad (Process σ ε) where
  pure a := fun s => some ⟨.ok a, [], s⟩
  bind := andThen

instance : MonadExcept ε (Process σ ε) where
  throw e := fun s => some ⟨.error e, [], s⟩
  tryCatch x handle := fun s =>
    match x s with
    | none => none
    | some ⟨.ok a, events, s'⟩ => some ⟨.ok a, events, s'⟩
    | some ⟨.error e, events, s'⟩ => (handle e s').map (·.after events)

/-- The process that runs for ever. -/
def endless : Process σ ε α := fun _ => none

/-- An effect, as a process. -/
def ofEffect (x : Effect σ ε α) : Process σ ε α := fun s => some (x s)

instance : MonadLift (Effect σ ε) (Process σ ε) := ⟨ofEffect⟩

/-- Emit events. -/
def emit (events : List Event) : Process σ ε Unit := ofEffect (Effect.emit events)

/-- An answer that is at hand. -/
def ofExcept (x : Except ε α) : Process σ ε α := ofEffect (Effect.ofExcept x)

/-- The answer of a process, value or error, as a value. -/
def attempt (x : Process σ ε α) : Process σ ε (Except ε α) := fun s =>
  (x s).map fun r => ⟨.ok r.result, r.events, r.state⟩

/-- Put the error of a process into another form. -/
def mapError (f : ε → δ) (x : Process σ ε α) : Process σ δ α := fun s =>
  (x s).map (·.mapError f)

end Process

end Pipeline
