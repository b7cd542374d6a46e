import Pipeline.Effect

/-!
# Laws of effects and processes

A process is opened one part at a time.  `Process.bind_of_ok`, `bind_of_error` and
`bind_of_none` follow a run forward, and `Process.bind_eq_some` takes a run apart;
`bind_eq_ok` is the same for a run that gave a value.

`Process.Gives` says what every value of a process satisfies.  It says nothing of
errors, and nothing of a process that runs for ever.  `Process.ending` is what is
left of a run without its events.
-/

namespace Pipeline

variable {σ τ ε α β : Type}

theorem Run.eq_of_result {z : Run σ ε α} {result : Except ε α} (h : z.result = result) :
    z = ⟨result, z.events, z.state⟩ := by
  rw [← h]

@[simp] theorem Run.after_result (events : List Event) (z : Run σ ε α) :
    (z.after events).result = z.result := rfl

@[simp] theorem Run.after_events (events : List Event) (z : Run σ ε α) :
    (z.after events).events = events ++ z.events := rfl

@[simp] theorem Run.after_state (events : List Event) (z : Run σ ε α) :
    (z.after events).state = z.state := rfl

namespace Effect

/-- A first part that gave a value is followed by the second, with its events in front. -/
theorem bind_of_ok {x : Effect σ ε α} {f : α → Effect σ ε β} {s s' : σ} {a : α}
    {events : List Event} (h : x s = ⟨.ok a, events, s'⟩) :
    (x >>= f) s = (f a s').after events := by
  change andThen x f s = _
  rw [andThen, h]

/-- A first part that failed is all there is. -/
theorem bind_of_error {x : Effect σ ε α} {f : α → Effect σ ε β} {s s' : σ} {e : ε}
    {events : List Event} (h : x s = ⟨.error e, events, s'⟩) :
    (x >>= f) s = ⟨.error e, events, s'⟩ := by
  change andThen x f s = _
  rw [andThen, h]

/-- A sequence that gave a value did so in two parts. -/
theorem ok_of_bind {x : Effect σ ε α} {f : α → Effect σ ε β} {s : σ} {b : β}
    (h : ((x >>= f) s).result = .ok b) :
    ∃ a events s', x s = ⟨.ok a, events, s'⟩ ∧ (f a s').result = .ok b := by
  cases hx : x s with
  | mk result events s' =>
    cases result with
    | error e => rw [bind_of_error hx] at h; cases h
    | ok a => rw [bind_of_ok hx] at h; exact ⟨a, events, s', rfl, h⟩

theorem pure_bind (a : α) (f : α → Effect σ ε β) : (pure a : Effect σ ε α) >>= f = f a :=
  funext fun _ => Run.after_nil _

theorem bind_assoc {γ : Type} (x : Effect σ ε α) (f : α → Effect σ ε β)
    (g : β → Effect σ ε γ) : (x >>= f) >>= g = x >>= fun a => f a >>= g := by
  funext s
  cases hx : x s with
  | mk result first mid =>
    cases result with
    | error e => rw [bind_of_error (bind_of_error hx), bind_of_error hx]
    | ok a =>
      cases hf : f a mid with
      | mk result second last =>
        have hrun : (x >>= f) s = ⟨result, first ++ second, last⟩ := by
          rw [bind_of_ok hx, hf]
          rfl
        cases result with
        | error e =>
          rw [bind_of_error hrun, bind_of_ok hx, bind_of_error hf]
          rfl
        | ok b => rw [bind_of_ok hrun, bind_of_ok hx, bind_of_ok hf, Run.after_after]

theorem tryCatch_of_ok {x : Effect σ ε α} {handle : ε → Effect σ ε α} {s s' : σ} {a : α}
    {events : List Event} (h : x s = ⟨.ok a, events, s'⟩) :
    (tryCatch x handle) s = ⟨.ok a, events, s'⟩ := by
  simp only [tryCatch, h]

/-- A handler acts on the state that the failed part left. -/
theorem tryCatch_of_error {x : Effect σ ε α} {handle : ε → Effect σ ε α} {s s' : σ} {e : ε}
    {events : List Event} (h : x s = ⟨.error e, events, s'⟩) :
    (tryCatch x handle) s = (handle e s').after events := by
  simp only [tryCatch, h]

theorem mapError_apply {x : Effect σ ε α} {s s' : σ} {result : Except ε α}
    {events : List Event} (h : x s = ⟨result, events, s'⟩) {δ : Type} (f : ε → δ) :
    x.mapError f s = ⟨result.mapError f, events, s'⟩ := by
  rw [mapError, h]
  rfl

@[simp] theorem get_bind (f : σ → Effect σ ε β) (s : σ) : (get >>= f) s = f s s := rfl

@[simp] theorem ofExcept_ok_bind (a : α) (f : α → Effect σ ε β) (s : σ) :
    (ofExcept (.ok a) >>= f) s = f a s := rfl

@[simp] theorem ofExcept_error_bind (e : ε) (f : α → Effect σ ε β) (s : σ) :
    (ofExcept (.error e) >>= f) s = ⟨.error e, [], s⟩ := rfl

end Effect

namespace Process

/-! ## One part at a time -/

theorem pure_apply (a : α) (s : σ) : (pure a : Process σ ε α) s = some ⟨.ok a, [], s⟩ := rfl

theorem throw_apply (e : ε) (s : σ) :
    (throw e : Process σ ε α) s = some ⟨.error e, [], s⟩ := rfl

theorem emit_apply (events : List Event) (s : σ) :
    (emit events : Process σ ε Unit) s = some ⟨.ok (), events, s⟩ := rfl

/-- An answer is looked at as a value, whether it is one or an error. -/
theorem attempt_of_some {x : Process σ ε α} {s : σ} {z : Run σ ε α} (h : x s = some z) :
    x.attempt s = some ⟨.ok z.result, z.events, z.state⟩ := by
  rw [attempt, h]
  rfl

theorem attempt_of_none {x : Process σ ε α} {s : σ} (h : x s = none) : x.attempt s = none := by
  rw [attempt, h]
  rfl

theorem bind_of_ok {x : Process σ ε α} {f : α → Process σ ε β} {s s' : σ} {a : α}
    {events : List Event} (h : x s = some ⟨.ok a, events, s'⟩) :
    (x >>= f) s = (f a s').map (·.after events) := by
  change andThen x f s = _
  rw [andThen, h]

theorem bind_of_error {x : Process σ ε α} {f : α → Process σ ε β} {s s' : σ} {e : ε}
    {events : List Event} (h : x s = some ⟨.error e, events, s'⟩) :
    (x >>= f) s = some ⟨.error e, events, s'⟩ := by
  change andThen x f s = _
  rw [andThen, h]

/-- A first part that runs for ever is all there is. -/
theorem bind_of_none {x : Process σ ε α} {f : α → Process σ ε β} {s : σ} (h : x s = none) :
    (x >>= f) s = none := by
  change andThen x f s = _
  rw [andThen, h]

/-- A sequence ended with the error of its first part, or went on to the second. -/
theorem bind_eq_some {x : Process σ ε α} {f : α → Process σ ε β} {s : σ} {z : Run σ ε β} :
    (x >>= f) s = some z ↔
      (∃ e events s', x s = some ⟨.error e, events, s'⟩ ∧ z = ⟨.error e, events, s'⟩) ∨
      ∃ a first mid second, x s = some ⟨.ok a, first, mid⟩ ∧ f a mid = some second ∧
        z = second.after first := by
  constructor
  · intro h
    cases hx : x s with
    | none => rw [bind_of_none hx] at h; cases h
    | some run =>
      obtain ⟨e | a, first, mid⟩ := run
      · rw [bind_of_error hx] at h
        exact .inl ⟨e, first, mid, rfl, (Option.some.inj h).symm⟩
      · rw [bind_of_ok hx] at h
        obtain ⟨second, hf, rfl⟩ := Option.map_eq_some_iff.mp h
        exact .inr ⟨a, first, mid, second, rfl, hf, rfl⟩
  · rintro (⟨e, events, s', hx, rfl⟩ | ⟨a, first, mid, second, hx, hf, rfl⟩)
    · exact bind_of_error hx
    · rw [bind_of_ok hx, hf]
      rfl

/-- A sequence that gave a value did so in two parts. -/
theorem bind_eq_ok {x : Process σ ε α} {f : α → Process σ ε β} {s s' : σ} {b : β}
    {events : List Event} :
    (x >>= f) s = some ⟨.ok b, events, s'⟩ ↔
      ∃ a first mid second, x s = some ⟨.ok a, first, mid⟩ ∧
        f a mid = some ⟨.ok b, second, s'⟩ ∧ events = first ++ second := by
  rw [bind_eq_some]
  constructor
  · rintro (⟨e, first, mid, _, hz⟩ | ⟨a, first, mid, ⟨result, second, last⟩, hx, hf, hz⟩)
    · cases hz
    · cases hz
      exact ⟨a, first, mid, second, hx, hf, rfl⟩
  · rintro ⟨a, first, mid, second, hx, hf, rfl⟩
    exact .inr ⟨a, first, mid, _, hx, hf, rfl⟩

theorem pure_bind (a : α) (f : α → Process σ ε β) : (pure a : Process σ ε α) >>= f = f a := by
  funext s
  rw [bind_of_ok (pure_apply a s)]
  cases f a s <;> rfl

/-- A sequence that ends with an answer made of the first one. -/
theorem bind_pure_apply (x : Process σ ε α) (f : α → β) (s : σ) :
    (x >>= fun a => pure (f a)) s =
      (x s).map fun z => ⟨z.result.map f, z.events, z.state⟩ := by
  rcases hx : x s with _ | ⟨e | a, events, s'⟩
  · exact bind_of_none hx
  · exact bind_of_error hx
  · rw [bind_of_ok hx]
    simp [pure_apply, Run.after, Except.map]

/-- A sequence that starts with an answer at hand goes on with it. -/
theorem ofExcept_bind (y : Except ε α) (f : α → Process σ ε β) (s : σ) :
    (ofExcept y >>= f) s =
      match y with
      | .ok a => f a s
      | .error e => some ⟨.error e, [], s⟩ := by
  cases y with
  | ok a => exact congrFun (pure_bind a f) s
  | error e => rfl

theorem bind_assoc {γ : Type} (x : Process σ ε α) (f : α → Process σ ε β)
    (g : β → Process σ ε γ) : (x >>= f) >>= g = x >>= fun a => f a >>= g := by
  funext s
  rcases hx : x s with _ | ⟨e | a, first, mid⟩
  · rw [bind_of_none (bind_of_none hx), bind_of_none hx]
  · rw [bind_of_error (bind_of_error hx), bind_of_error hx]
  · have hrun : (x >>= f) s = (f a mid).map (·.after first) := bind_of_ok hx
    rw [bind_of_ok hx]
    rcases hf : f a mid with _ | ⟨e | b, second, last⟩ <;> rw [hf] at hrun
    · rw [bind_of_none hrun, bind_of_none hf]
      rfl
    · rw [bind_of_error hrun, bind_of_error hf]
      rfl
    · rw [bind_of_ok hrun, bind_of_ok hf, Option.map_map]
      exact congrArg (Option.map · (g b last)) (funext fun z => (Run.after_after _ _ z).symm)

/-- A sequence of effects, as a sequence of processes. -/
theorem ofEffect_bind (x : Effect σ ε α) (f : α → Effect σ ε β) :
    ofEffect (x >>= f) = ofEffect x >>= fun a => ofEffect (f a) := by
  funext s
  cases hx : x s with
  | mk result events s' =>
    have hrun : ofEffect x s = some ⟨result, events, s'⟩ := congrArg some hx
    cases result with
    | error e => rw [bind_of_error hrun, ofEffect, Effect.bind_of_error hx]
    | ok a => rw [bind_of_ok hrun, ofEffect, Effect.bind_of_ok hx]; rfl

/-! ## What a process gives -/

/-- Every value the process gives satisfies the predicate. -/
def Gives (x : Process σ ε α) (P : α → Prop) : Prop :=
  ∀ ⦃s a events s'⦄, x s = some ⟨.ok a, events, s'⟩ → P a

namespace Gives

variable {x : Process σ ε α} {f : α → Process σ ε β} {P : α → Prop} {R : β → Prop}

theorem pure {a : α} (h : P a) : Gives (Pure.pure a : Process σ ε α) P := by
  intro s b events s' hrun
  cases hrun
  exact h

theorem endless : Gives (Process.endless : Process σ ε α) P := by
  intro s a events s' hrun
  cases hrun

/-- What every value of the first part satisfies may be used of what follows. -/
theorem bind (hx : Gives x P) (hf : ∀ a, P a → Gives (f a) R) : Gives (x >>= f) R := by
  intro s b events s' hrun
  obtain ⟨a, first, mid, second, hrunx, hrunf, _⟩ := bind_eq_ok.mp hrun
  exact hf a (hx hrunx) hrunf

/-- What is asked of a sequence may be asked of its last part alone. -/
theorem bind_last (hf : ∀ a, Gives (f a) R) : Gives (x >>= f) R :=
  bind (P := fun _ => True) (fun _ _ _ _ _ => trivial) fun a _ => hf a

/-- The same for a sequence of effects. -/
theorem ofEffect_bind_last {y : Effect σ ε α} {g : α → Effect σ ε β}
    (hg : ∀ a, Gives (ofEffect (g a)) R) : Gives (ofEffect (y >>= g)) R := by
  intro s b events s' hrun
  have hrun' : (y >>= g) s = ⟨.ok b, events, s'⟩ := Option.some.inj hrun
  cases hy : y s with
  | mk result first mid =>
    cases result with
    | error e =>
      rw [Effect.bind_of_error hy] at hrun'
      cases hrun'
    | ok a =>
      rw [Effect.bind_of_ok hy] at hrun'
      cases hz : g a mid with
      | mk result second last =>
        rw [hz] at hrun'
        cases hrun'
        exact hg a (congrArg some hz)

theorem mono {P' : α → Prop} (hx : Gives x P) (h : ∀ a, P a → P' a) : Gives x P' :=
  fun _ _ _ _ hrun => h _ (hx hrun)

end Gives

/-! ## Runs without their events -/

/-- How a process ends from a state: its answer and the new state. -/
def ending (x : Process σ ε α) (s : σ) : Option (Except ε α × σ) :=
  (x s).map fun z => (z.result, z.state)

theorem ending_of_some {x : Process σ ε α} {s : σ} {z : Run σ ε α} (h : x s = some z) :
    x.ending s = some (z.result, z.state) := by
  rw [ending, h]
  rfl

/-- An effect ends with its run. -/
theorem ending_ofEffect {x : Effect σ ε α} {s s' : σ} {result : Except ε α} {events : List Event}
    (h : x s = ⟨result, events, s'⟩) : (ofEffect x).ending s = some (result, s') := by
  rw [ending, ofEffect, h]
  rfl

theorem ending_of_none {x : Process σ ε α} {s : σ} (h : x s = none) : x.ending s = none := by
  rw [ending, h]
  rfl

/-- What a run leaves, without its events, is known from some run. -/
theorem ending_eq_some {x : Process σ ε α} {s s' : σ} {result : Except ε α} :
    x.ending s = some (result, s') ↔ ∃ events, x s = some ⟨result, events, s'⟩ := by
  constructor
  · intro h
    obtain ⟨⟨answer, events, last⟩, hx, hz⟩ := Option.map_eq_some_iff.mp h
    cases hz
    exact ⟨events, hx⟩
  · rintro ⟨events, hx⟩
    exact ending_of_some hx

theorem ending_bind_of_none {x : Process σ ε α} {f : α → Process σ ε β} {s : σ}
    (h : x.ending s = none) : (x >>= f).ending s = none :=
  ending_of_none (bind_of_none (Option.map_eq_none_iff.mp h))

theorem ending_bind_of_error {x : Process σ ε α} {f : α → Process σ ε β} {s s' : σ} {e : ε}
    (h : x.ending s = some (.error e, s')) : (x >>= f).ending s = some (.error e, s') := by
  obtain ⟨events, hx⟩ := ending_eq_some.mp h
  exact ending_of_some (bind_of_error hx)

/-- Events before a run do not change how it ends. -/
theorem map_after_ending (z : Option (Run σ ε α)) (events : List Event) :
    (z.map (·.after events)).map (fun z => (z.result, z.state)) =
      z.map fun z => (z.result, z.state) := by
  cases z <;> rfl

/-- What follows a value ends as it does alone. -/
theorem ending_bind_of_ok {x : Process σ ε α} {f : α → Process σ ε β} {s s' : σ} {a : α}
    (h : x.ending s = some (.ok a, s')) : (x >>= f).ending s = (f a).ending s' := by
  obtain ⟨events, hx⟩ := ending_eq_some.mp h
  rw [ending, bind_of_ok hx, map_after_ending]
  rfl

end Process

end Pipeline
