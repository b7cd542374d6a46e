import Pipeline.Proofs.Process

/-!
# What effects fail with, emit and keep

`Effect.Fails` says what every error of an effect satisfies, and `Effect.Emits` what
every one of its events satisfies, from any state.  `Effect.Keeps` says what stays true of
the state.  All three are kept by sequences, so that each is shown of an effect one part at
a time.  `Process.Fails` and `Process.Emits` say the same of a process that ends.
-/

namespace Pipeline

namespace Effect

variable {σ τ ε δ α β : Type}

/-! ## Errors -/

/-- Every error of the effect satisfies the predicate. -/
def Fails (x : Effect σ ε α) (P : ε → Prop) : Prop :=
  ∀ ⦃s e⦄, (x s).result = .error e → P e

namespace Fails

variable {x : Effect σ ε α} {f : α → Effect σ ε β} {P R : ε → Prop}

theorem pure (a : α) : Fails (Pure.pure a : Effect σ ε α) P := by
  intro s e h
  cases h

theorem emit (events : List Event) : Fails (Effect.emit events : Effect σ ε Unit) P := by
  intro s e h
  cases h

theorem throw {e : ε} (h : P e) : Fails (MonadExcept.throw e : Effect σ ε α) P := by
  intro s e' he
  cases he
  exact h

theorem ofExcept {y : Except ε α} (h : ∀ e, y = .error e → P e) :
    Fails (Effect.ofExcept y : Effect σ ε α) P := by
  intro s e he
  exact h e he

/-- An answer at hand whose error is put into another form. -/
theorem ofExcept_mapError {y : Except ε α} {g : ε → δ} {R : δ → Prop}
    (h : ∀ e, y = .error e → R (g e)) :
    Fails (Effect.ofExcept (y.mapError g) : Effect σ δ α) R := by
  apply ofExcept
  intro e he
  cases y with
  | ok a => cases he
  | error inner => cases he; exact h inner rfl

/-- Errors that satisfy more satisfy less. -/
theorem mono (hx : Fails x P) (h : ∀ e, P e → R e) : Fails x R :=
  fun _ e he => h e (hx he)

/-- What follows an effect need only be looked at for the values that the effect gives. -/
theorem bind_given (hx : Fails x P) (hf : ∀ s a, (x s).result = .ok a → Fails (f a) P) :
    Fails (x >>= f) P := by
  intro s e he
  cases hrun : x s with
  | mk result events s' =>
    cases result with
    | error e' =>
      rw [bind_of_error hrun] at he
      cases he
      exact hx (congrArg Run.result hrun)
    | ok a =>
      rw [bind_of_ok hrun] at he
      exact hf s a (congrArg Run.result hrun) he

/-- A whole fails as one of its parts does. -/
theorem bind (hx : Fails x P) (hf : ∀ a, Fails (f a) P) : Fails (x >>= f) P :=
  bind_given hx fun _ a _ => hf a

/-- The same for an answer at hand whose error is put into another form. -/
theorem mapError_bind {y : Except δ α} {g : δ → ε} (hy : ∀ e, y = .error e → P (g e))
    (hf : ∀ a, y = .ok a → Fails (f a) P) : Fails (Effect.ofExcept (y.mapError g) >>= f) P := by
  refine bind_given (ofExcept_mapError hy) fun s a ha => hf a ?_
  cases y with
  | error e => cases ha
  | ok a' => cases ha; rfl

/-- An error put into another form satisfies what that form does. -/
theorem mapError {g : ε → δ} {R : δ → Prop} (hx : Fails x P) (h : ∀ e, P e → R (g e)) :
    Fails (x.mapError g) R := by
  intro s e he
  change (x s).result.mapError g = .error e at he
  cases hresult : (x s).result with
  | ok a => rw [hresult] at he; cases he
  | error e' =>
    rw [hresult] at he
    cases he
    exact h e' (hx hresult)

/-- Whatever an effect fails with, its error has the form that it is put into. -/
theorem mapError_of_forall {g : ε → δ} {R : δ → Prop} (h : ∀ e, R (g e)) :
    Fails (x.mapError g) R :=
  mapError (P := fun _ => True) (fun _ _ _ => trivial) fun e _ => h e

end Fails

/-! ## Events -/

/-- Every event of the effect satisfies the predicate. -/
def Emits (x : Effect σ ε α) (P : Event → Prop) : Prop :=
  ∀ ⦃s⦄, ∀ event ∈ (x s).events, P event

namespace Emits

variable {x : Effect σ ε α} {f : α → Effect σ ε β} {P : Event → Prop}

theorem pure (a : α) : Emits (Pure.pure a : Effect σ ε α) P := by
  intro s event hmem
  cases hmem

theorem throw (e : ε) : Emits (MonadExcept.throw e : Effect σ ε α) P := by
  intro s event hmem
  cases hmem

theorem emit {events : List Event} (h : ∀ event ∈ events, P event) :
    Emits (Effect.emit events : Effect σ ε Unit) P :=
  fun _ => h

theorem ofExcept (y : Except ε α) : Emits (Effect.ofExcept y : Effect σ ε α) P := by
  intro s event hmem
  cases hmem

theorem get : Emits (Effect.get : Effect σ ε σ) P := by
  intro s event hmem
  cases hmem

theorem set (s : σ) : Emits (Effect.set s : Effect σ ε Unit) P := by
  intro s event hmem
  cases hmem

/-- A whole emits what its parts emit. -/
theorem bind (hx : Emits x P) (hf : ∀ a, Emits (f a) P) : Emits (x >>= f) P := by
  intro s event hmem
  cases hrun : x s with
  | mk result events s' =>
    have hevents : ∀ event ∈ events, P event := by
      intro event hmem
      exact hx event (by rw [hrun]; exact hmem)
    cases result with
    | error e =>
      rw [bind_of_error hrun] at hmem
      exact hevents event hmem
    | ok a =>
      rw [bind_of_ok hrun, Run.after_events] at hmem
      rcases List.mem_append.mp hmem with hfirst | hsecond
      · exact hevents event hfirst
      · exact hf a event hsecond

/-- A failed part has emitted its events before the handler. -/
theorem tryCatch {handle : ε → Effect σ ε α} (hx : Emits x P) (hhandle : ∀ e, Emits (handle e) P) :
    Emits (MonadExcept.tryCatch x handle) P := by
  intro s event hmem
  cases hrun : x s with
  | mk result events s' =>
    have hevents : ∀ event ∈ events, P event := by
      intro event hmem
      exact hx event (by rw [hrun]; exact hmem)
    cases result with
    | ok a =>
      rw [tryCatch_of_ok hrun] at hmem
      exact hevents event hmem
    | error e =>
      rw [tryCatch_of_error hrun, Run.after_events] at hmem
      rcases List.mem_append.mp hmem with hfirst | hsecond
      · exact hevents event hfirst
      · exact hhandle e event hsecond

theorem mono {R : Event → Prop} (hx : Emits x P) (h : ∀ event, P event → R event) :
    Emits x R :=
  fun _ event hmem => h event (hx event hmem)

theorem mapError (hx : Emits x P) (g : ε → δ) : Emits (x.mapError g) P :=
  fun _ event hmem => hx event hmem

/-- What acts on a part of the state emits the same. -/
theorem zoom {x : Effect τ ε α} (hx : Emits x P) (get : σ → τ) (set : σ → τ → σ) :
    Emits (Effect.zoom get set x) P :=
  fun _ event hmem => hx event hmem

end Emits

/-! ## States -/

/-- What holds of the state before the effect holds of it afterwards, whether the effect fails
or not. -/
def Keeps (P : σ → Prop) (x : Effect σ ε α) : Prop := ∀ ⦃s⦄, P s → P (x s).state

namespace Keeps

variable {x : Effect σ ε α} {f : α → Effect σ ε β} {P : σ → Prop}

/-- What leaves the state as it was keeps what is said of it. -/
theorem of_state_eq (h : ∀ s, (x s).state = s) : Keeps P x := by
  intro s hs
  rw [h]
  exact hs

theorem pure (a : α) : Keeps P (Pure.pure a : Effect σ ε α) := of_state_eq fun _ => rfl

theorem emit (events : List Event) : Keeps P (Effect.emit events : Effect σ ε Unit) :=
  of_state_eq fun _ => rfl

theorem get : Keeps P (Effect.get : Effect σ ε σ) := of_state_eq fun _ => rfl

/-- Parts that keep it make a whole that does. -/
theorem bind (hx : Keeps P x) (hf : ∀ a, Keeps P (f a)) : Keeps P (x >>= f) := by
  intro s hs
  have hmid := hx hs
  cases hrun : x s with
  | mk result events s' =>
    rw [hrun] at hmid
    cases result with
    | error e =>
      rw [bind_of_error hrun]
      exact hmid
    | ok a =>
      rw [bind_of_ok hrun]
      exact hf a hmid

end Keeps

end Effect

namespace Process

variable {σ ε α β : Type}

/-- Every error that the process ends with satisfies the predicate. -/
def Fails (x : Process σ ε α) (P : ε → Prop) : Prop :=
  ∀ ⦃s e events s'⦄, x s = some ⟨.error e, events, s'⟩ → P e

namespace Fails

variable {x : Process σ ε α} {f : α → Process σ ε β} {P : ε → Prop}

theorem pure (a : α) : Fails (Pure.pure a : Process σ ε α) P := by
  intro s e events s' hrun
  cases hrun

theorem endless : Fails (Process.endless : Process σ ε α) P := by
  intro s e events s' hrun
  cases hrun

/-- An effect fails in the same way as a process. -/
theorem ofEffect {y : Effect σ ε α} (h : y.Fails P) : Fails (Process.ofEffect y) P := by
  intro s e events s' hrun
  exact h (congrArg Run.result (Option.some.inj hrun))

/-- What follows a process need only be looked at for the values that the process gives. -/
theorem bind_given (hx : Fails x P)
    (hf : ∀ ⦃s a events s'⦄, x s = some ⟨.ok a, events, s'⟩ → Fails (f a) P) :
    Fails (x >>= f) P := by
  intro s e events s' hrun
  obtain ⟨e', first, mid, hrunx, hz⟩ | ⟨a, first, mid, ⟨result, second, last⟩, hrunx, hrunf, hz⟩ :=
    bind_eq_some.mp hrun
  · cases hz
    exact hx hrunx
  · cases hz
    exact hf hrunx hrunf

/-- The same of processes: one that runs for ever does not fail. -/
theorem bind (hx : Fails x P) (hf : ∀ a, Fails (f a) P) : Fails (x >>= f) P :=
  bind_given hx fun _ a _ _ _ => hf a

/-- The same for an answer at hand. -/
theorem ofExcept_bind {y : Except ε α} (hy : ∀ e, y = .error e → P e)
    (hf : ∀ a, y = .ok a → Fails (f a) P) : Fails (Process.ofExcept y >>= f) P := by
  refine bind_given (ofEffect (.ofExcept hy)) fun s a events s' hrun => hf a ?_
  cases hrun
  rfl

theorem mono {R : ε → Prop} (hx : Fails x P) (h : ∀ e, P e → R e) : Fails x R :=
  fun _ _ _ _ hrun => h _ (hx hrun)

end Fails

/-- Every event of the process, if it ends, satisfies the predicate. -/
def Emits (x : Process σ ε α) (P : Event → Prop) : Prop :=
  ∀ ⦃s z⦄, x s = some z → ∀ event ∈ z.events, P event

theorem Emits.ofEffect {y : Effect σ ε α} {P : Event → Prop} (h : y.Emits P) :
    Emits (Process.ofEffect y) P := by
  intro s z hrun
  cases hrun
  exact @h s

end Process

end Pipeline
