import Pipeline.Interpreter
import Pipeline.Proofs.Process

/-!
# Relations that sequences keep

A `Congruence` relates courses and is kept by sequences.  It is then kept by everything that
is made of sequences alone: going round a loop, going over the elements of a list, and
keeping some of them.  What an element that is no mapping fails with is related apart, since
a relation may depend on where the list stands in a tree.
-/

namespace Pipeline

/-- A relation between courses that sequences keep. -/
structure Congruence (sim : {α : Type} → Course α → Course α → Prop) : Prop where
  endless : ∀ {α : Type}, sim (Process.endless : Course α) Process.endless
  pure : ∀ {α : Type} (a : α), sim (Pure.pure a : Course α) (Pure.pure a)
  bind : ∀ {α β : Type} {x y : Course α} {f g : α → Course β},
    sim x y → (∀ a, sim (f a) (g a)) → sim (x >>= f) (y >>= g)

namespace Congruence

variable {sim : {α : Type} → Course α → Course α → Prop}

/-- The first loop stops for want of rounds no later than the second. -/
theorem rounds (S : Congruence sim) {body body' : Record → Course Outcome}
    {condition condition' : Record → Course Bool} (bound : Option Nat)
    (hbody : ∀ r, sim (body r) (body' r)) (hcondition : ∀ r, sim (condition r) (condition' r)) :
    ∀ {k l : Nat}, k ≤ l → (k < l → ∀ y : Course LoopEnd, sim Process.endless y) →
      ∀ (done : Nat) (register : Record),
        sim (runRounds body condition bound k done register)
          (runRounds body' condition' bound l done register) := by
  intro k
  induction k with
  | zero =>
    intro l _ hmore done register
    unfold runRounds
    split
    · exact S.pure _
    · refine S.bind (hcondition register) fun holds => ?_
      split
      · exact S.pure _
      · cases l with
        | zero => exact S.endless
        | succ l => exact hmore (by omega) _
  | succ k ih =>
    intro l hl hmore done register
    obtain ⟨l, rfl⟩ : ∃ l', l = l' + 1 := ⟨l - 1, by omega⟩
    unfold runRounds
    split
    · exact S.pure _
    · refine S.bind (hcondition register) fun holds => ?_
      split
      · exact S.pure _
      · refine S.bind (hbody register) fun outcome => ?_
        cases outcome with
        | next r => exact ih (by omega) (fun h => hmore (by omega)) (done + 1) r
        | exitLoop r => exact S.pure _

/-- The same for two loops of as many rounds. -/
theorem sameRounds (S : Congruence sim) {body body' : Record → Course Outcome}
    {condition condition' : Record → Course Bool} (hbody : ∀ r, sim (body r) (body' r))
    (hcondition : ∀ r, sim (condition r) (condition' r)) (bound : Option Nat)
    (rounds done : Nat) (register : Record) :
    sim (runRounds body condition bound rounds done register)
      (runRounds body' condition' bound rounds done register) :=
  S.rounds bound hbody hcondition (Nat.le_refl rounds) (fun h => absurd h (Nat.lt_irrefl rounds))
    done register

theorem each (S : Congruence sim) {body body' : Record → Course Outcome}
    (hbody : ∀ r, sim (body r) (body' r)) {items : List Value}
    (hitems : ∀ item ∈ items,
      sim (Process.ofExcept item.expectRecord) (Process.ofExcept item.expectRecord)) :
    sim (runEach body items) (runEach body' items) := by
  induction items with
  | nil => exact S.pure _
  | cons item rest ih =>
    refine S.bind (hitems item (.head _)) fun record => ?_
    refine S.bind (hbody record) fun outcome => ?_
    cases outcome with
    | exitLoop r => exact S.pure _
    | next result =>
      refine S.bind (ih fun other hmem => hitems other (.tail _ hmem)) fun results => ?_
      cases results with
      | none => exact S.pure _
      | some results => exact S.pure _

theorem kept (S : Congruence sim) {test test' : Record → Course Bool}
    (htest : ∀ r, sim (test r) (test' r)) {items : List Value}
    (hitems : ∀ item ∈ items,
      sim (Process.ofExcept item.expectRecord) (Process.ofExcept item.expectRecord)) :
    sim (keepEach test items) (keepEach test' items) := by
  induction items with
  | nil => exact S.pure _
  | cons item rest ih =>
    refine S.bind (hitems item (.head _)) fun record => ?_
    refine S.bind (htest record) fun keep => ?_
    exact S.bind (ih fun other hmem => hitems other (.tail _ hmem)) fun kept => S.pure _

end Congruence

end Pipeline
