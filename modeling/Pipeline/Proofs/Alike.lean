import Pipeline.Proofs.Congruence
import Pipeline.Proofs.Halting
import Pipeline.Proofs.Layers

/-!
# Runs that end alike

`AlikeUpTo keep` relates two courses that end in the same way, where `keep` says what of an
error is looked at: both run on, both give the same value in the same world, or both fail in
the same world with errors of which the same is kept.  Events are not looked at.

Sequences keep the relation, and so does a construct that puts a layer around an error, if
what is kept of the error inside decides what is kept of the whole (`Layer.Alike`).  A proof
that two trees run alike has its own cases left only where the trees differ.
-/

namespace Pipeline

variable {α β δ : Type} {keep : ExecutionError → δ}

/-- How a course ends, with what is kept of its error. -/
def Process.endingUpTo (keep : ExecutionError → δ) (x : Course α) (w : World) :
    Option (Except δ α × World) :=
  (x.ending w).map fun z => (z.1.mapError keep, z.2)

/-- The courses end in the same way, up to what is kept of an error. -/
def AlikeUpTo (keep : ExecutionError → δ) (x y : Course α) : Prop :=
  ∀ w, x.endingUpTo keep w = y.endingUpTo keep w

/-- Whatever is kept alike of two errors is kept alike inside the layers. -/
def Layer.Alike (keep : ExecutionError → δ) (layer layer' : Layer) : Prop :=
  ∀ error error', keep error = keep error' → keep (layer.wrap error) = keep (layer'.wrap error')

namespace AlikeUpTo

variable {x y : Course α} {f g : α → Course β}

theorem refl (x : Course α) : AlikeUpTo keep x x := fun _ => rfl

theorem symm (h : AlikeUpTo keep x y) : AlikeUpTo keep y x := fun w => (h w).symm

theorem trans {z : Course α} (h : AlikeUpTo keep x y) (h' : AlikeUpTo keep y z) :
    AlikeUpTo keep x z :=
  fun w => (h w).trans (h' w)

/-- Both run on, both give the same value, or both fail in the same world. -/
theorem cases (h : AlikeUpTo keep x y) (w : World) :
    (x.ending w = none ∧ y.ending w = none) ∨
    (∃ a w', x.ending w = some (.ok a, w') ∧ y.ending w = some (.ok a, w')) ∨
    ∃ error error' w', x.ending w = some (.error error, w') ∧
      y.ending w = some (.error error', w') ∧ keep error = keep error' := by
  have hw := h w
  unfold Process.endingUpTo at hw
  rcases hx : x.ending w with _ | ⟨error | a, w'⟩ <;>
    rcases hy : y.ending w with _ | ⟨error' | a', w''⟩ <;> rw [hx, hy] at hw
  · exact .inl ⟨rfl, rfl⟩
  · cases hw
  · cases hw
  · cases hw
  · obtain ⟨herror, hw⟩ := Prod.mk.inj (Option.some.inj hw)
    subst hw
    exact .inr (.inr ⟨error, error', w', rfl, rfl, Except.error.inj herror⟩)
  · cases hw
  · cases hw
  · cases hw
  · cases hw
    exact .inr (.inl ⟨a, w', rfl, rfl⟩)

/-- Courses that end in the same way end alike. -/
theorem of_ending (h : ∀ w, x.ending w = y.ending w) : AlikeUpTo keep x y := by
  intro w
  unfold Process.endingUpTo
  rw [h w]

/-- What decides what is kept less of decides that too. -/
theorem mono {ε : Type} {keep' : ExecutionError → ε}
    (hkeep : ∀ error error', keep error = keep error' → keep' error = keep' error')
    (h : AlikeUpTo keep x y) : AlikeUpTo keep' x y := by
  intro w
  unfold Process.endingUpTo
  obtain ⟨hn, hn'⟩ | ⟨a, w', ha, ha'⟩ | ⟨error, error', w', he, he', hsame⟩ := h.cases w
  · rw [hn, hn']
  · rw [ha, ha']
  · rw [he, he']
    exact congrArg (fun kept => some (Except.error kept, w')) (hkeep error error' hsame)

/-- Answers at hand of which the same is kept. -/
theorem ofExcept {y y' : Except ExecutionError α} (h : y.mapError keep = y'.mapError keep) :
    AlikeUpTo keep (Process.ofExcept y) (Process.ofExcept y') :=
  fun w => congrArg (fun answer => some (answer, w)) h

/-- Events make no difference. -/
theorem emit (events events' : List Event) :
    AlikeUpTo keep (Process.emit events) (Process.emit events') :=
  fun _ => rfl

theorem bind (hx : AlikeUpTo keep x y) (hf : ∀ a, AlikeUpTo keep (f a) (g a)) :
    AlikeUpTo keep (x >>= f) (y >>= g) := by
  intro w
  unfold Process.endingUpTo
  obtain ⟨hn, hn'⟩ | ⟨a, w', ha, ha'⟩ | ⟨error, error', w', he, he', hsame⟩ := hx.cases w
  · rw [Process.ending_bind_of_none hn, Process.ending_bind_of_none hn']
  · rw [Process.ending_bind_of_ok ha, Process.ending_bind_of_ok ha']
    exact hf a w'
  · rw [Process.ending_bind_of_error he, Process.ending_bind_of_error he']
    exact congrArg (fun kept => some (Except.error kept, w')) hsame

/-- A value may be put into another form before what follows it. -/
theorem bind_pure_bind {γ : Type} (x : Course α) (form : α → β) (f : β → Course γ) :
    AlikeUpTo keep ((x >>= fun a => pure (form a)) >>= f) (x >>= fun a => f (form a)) := by
  rw [Process.bind_assoc]
  simp only [Process.pure_bind]
  exact refl _

theorem congruence : Congruence (AlikeUpTo keep) where
  endless := refl _
  pure _ := refl _
  bind := bind

/-! ## Layers -/

theorem ending_mapError (h : ExecutionError → ExecutionError) (x : Course α) (w : World) :
    (x.mapError h).ending w = (x.ending w).map fun z => (z.1.mapError h, z.2) := by
  unfold Process.ending Process.mapError
  rcases x w with _ | ⟨result, events, w'⟩ <;> rfl

/-- Errors put into other forms of which the same is kept. -/
theorem mapError {h h' : ExecutionError → ExecutionError}
    (hkeep : ∀ error error', keep error = keep error' → keep (h error) = keep (h' error'))
    (hx : AlikeUpTo keep x y) : AlikeUpTo keep (x.mapError h) (y.mapError h') := by
  intro w
  unfold Process.endingUpTo
  rw [ending_mapError, ending_mapError]
  obtain ⟨hn, hn'⟩ | ⟨a, w', ha, ha'⟩ | ⟨error, error', w', he, he', hsame⟩ := hx.cases w
  · rw [hn, hn']
    rfl
  · rw [ha, ha']
    rfl
  · rw [he, he']
    exact congrArg (fun kept => some (Except.error kept, w')) (hkeep error error' hsame)

/-- Errors put into another form of which the same is kept as of themselves. -/
theorem mapError_self {h : ExecutionError → ExecutionError}
    (hkeep : ∀ error, keep (h error) = keep error) (x : Course α) :
    AlikeUpTo keep (x.mapError h) x := by
  intro w
  unfold Process.endingUpTo
  rw [ending_mapError]
  rcases x.ending w with _ | ⟨error | a, w'⟩
  · rfl
  · exact congrArg (fun kept => some (Except.error kept, w')) (hkeep error)
  · rfl

theorem within {e e' : Evaluator} {x y : Course Outcome}
    (hlayer : Layer.Alike keep (.evaluator e.name) (.evaluator e'.name))
    (h : AlikeUpTo keep x y) : AlikeUpTo keep (evaluateIn e x) (evaluateIn e' y) := by
  have hwrap : AlikeUpTo keep (x.mapError (.evaluator e.name)) (y.mapError (.evaluator e'.name)) :=
    h.mapError hlayer
  exact (of_ending (ending_evaluateIn e x)).trans
    (hwrap.trans (of_ending (ending_evaluateIn e' y)).symm)

/-- What follows a step is the same where the step ended alike. -/
theorem step {e e' : Evaluator} (he : e.fastExit = e'.fastExit) {name name' : String}
    {index index' : Nat} {component component' : String}
    (hlayer : Layer.Alike keep (.schema name index component) (.schema name' index' component'))
    (register : Record) {x y : Course Outcome} {f g : Record → Course Outcome}
    (hx : AlikeUpTo keep x y) (hf : ∀ r, AlikeUpTo keep (f r) (g r)) :
    AlikeUpTo keep (afterStep e name index component register x f)
      (afterStep e' name' index' component' register y g) := by
  intro w
  unfold Process.endingUpTo
  rw [ending_afterStep, ending_afterStep]
  obtain ⟨hn, hn'⟩ | ⟨r | r, w', ha, ha'⟩ | ⟨error, error', w', hx, hx', hsame⟩ := hx.cases w
  · rw [hn, hn']
  · rw [ha, ha']
    exact hf r w'
  · rw [ha, ha']
  · rw [hx, hx']
    simp only [← he]
    cases e.fastExit with
    | true =>
      exact congrArg (fun kept => some (Except.error kept, w')) (hlayer error error' hsame)
    | false => exact hf register w'

/-! ## Actions -/

/-- The same for a sequence of effects. -/
theorem act_bind {x y : Act α} {f g : α → Act β}
    (hx : AlikeUpTo keep (Process.ofEffect x) (Process.ofEffect y))
    (hf : ∀ a, AlikeUpTo keep (Process.ofEffect (f a)) (Process.ofEffect (g a))) :
    AlikeUpTo keep (Process.ofEffect (x >>= f)) (Process.ofEffect (y >>= g)) := by
  rw [Process.ofEffect_bind, Process.ofEffect_bind]
  exact hx.bind hf

theorem act_mapError {h h' : ExecutionError → ExecutionError} {x y : Act α}
    (hkeep : ∀ error error', keep error = keep error' → keep (h error) = keep (h' error'))
    (hx : AlikeUpTo keep (Process.ofEffect x) (Process.ofEffect y)) :
    AlikeUpTo keep (Process.ofEffect (x.mapError h)) (Process.ofEffect (y.mapError h')) :=
  hx.mapError hkeep

/-! ## Components -/

/-- What one of two components ends with, the other ends with, up to what is kept of an
error. -/
theorem ends {c c' : Component} {e e' : Evaluator} {register register' : Record}
    (h : ∀ rounds, AlikeUpTo keep (c.run rounds e register) (c'.run rounds e' register'))
    (w w' : World) :
    (∀ outcome, c.Ends e register w (.ok outcome) w' → c'.Ends e' register' w (.ok outcome) w') ∧
    ∀ error, c.Ends e register w (.error error) w' →
      ∃ error', c'.Ends e' register' w (.error error') w' ∧ keep error = keep error' := by
  constructor
  · intro outcome hends
    obtain ⟨rounds, hrun⟩ := Component.ends_iff.mp hends
    refine Component.ends_iff.mpr ⟨rounds, ?_⟩
    obtain ⟨hn, _⟩ | ⟨_, _, ha, ha'⟩ | ⟨_, _, _, he, _, _⟩ := (h rounds).cases w
    · rw [hrun] at hn; cases hn
    · rw [hrun] at ha; cases ha; exact ha'
    · rw [hrun] at he; cases he
  · intro error hends
    obtain ⟨rounds, hrun⟩ := Component.ends_iff.mp hends
    obtain ⟨hn, _⟩ | ⟨_, _, ha, _⟩ | ⟨_, error', _, he, he', hsame⟩ := (h rounds).cases w
    · rw [hrun] at hn; cases hn
    · rw [hrun] at ha; cases ha
    · rw [hrun] at he
      cases he
      exact ⟨error', Component.ends_iff.mpr ⟨rounds, he'⟩, hsame⟩

end AlikeUpTo

/-! ## One cause -/

/-- The courses end alike, up to the layers of an error. -/
abbrev SameCause {α : Type} (x y : Course α) : Prop := AlikeUpTo ExecutionError.rootCause x y

theorem Layer.alike_rootCause (layer layer' : Layer) :
    Layer.Alike ExecutionError.rootCause layer layer' := by
  intro error error' h
  rw [ExecutionError.rootCause_wrap, ExecutionError.rootCause_wrap, h]

/-- An evaluator adds a layer at most. -/
theorem SameCause.within_self (e : Evaluator) (body : Course Outcome) :
    SameCause (evaluateIn e body) body := by
  have hlayer : ∀ error, (ExecutionError.evaluator e.name error).rootCause = error.rootCause :=
    fun _ => rfl
  exact (AlikeUpTo.of_ending (ending_evaluateIn e body)).trans
    (AlikeUpTo.mapError_self hlayer body)

end Pipeline
