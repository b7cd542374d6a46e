import Pipeline.Proofs.Sequences
import Pipeline.Proofs.ViewWrites
import Pipeline.Stock.Function

/-!
# Independent actions

An action whose view has a get key and a set key, and keeps the rest of the register, sees one
entry and changes one entry: what it gives depends on the register only through the value at
its get key (`Action.outputOn_write`), and its output changes the set key only
(`View.Scoped.get?_write`).  So two of them that do not touch what the other reads or writes can
change places.
-/

namespace Pipeline

/-! ## What an action sees and changes -/

/-- The view reads at one key and writes at one key, beside the other entries. -/
structure View.Scoped (view : View) (getKey setKey : String) : Prop where
  reads : view.getKey = some getKey
  writes : view.setKey = some setKey
  beside : view.replace ≠ .global

section

variable {view view' : View} {getKey setKey getKey' setKey' : String}

/-- An output changes the set key only. -/
theorem View.Scoped.get?_write (h : view.Scoped getKey setKey) (register : Record)
    (output : Output) (key : String) :
    (view.write register output).get? key =
      if key = setKey then (view.stored? output).or (register.get? key)
      else register.get? key := by
  have hwrites := view.writesBack_write register output
  have htarget : view.setKey.getD view.defaultKey = setKey := by rw [h.writes, Option.getD_some]
  obtain hnone | ⟨_, _, hkey⟩ | ⟨v, hstored⟩ := view.output_cases output
  · rw [hwrites.unchanged hnone, hnone, stored?, Option.none_or, ite_self]
  · rw [h.writes] at hkey
    cases hkey
  · rw [hstored, Option.some_or]
    by_cases hkey : key = setKey
    · rw [if_pos hkey, hkey, ← htarget]
      exact hwrites.landed v hstored
    · rw [if_neg hkey]
      exact hwrites.kept v hstored h.beside key (htarget ▸ hkey)

/-- Outputs at two keys can be written in either order. -/
theorem View.Scoped.write_comm (h : view.Scoped getKey setKey) (h' : view'.Scoped getKey' setKey')
    (hne : setKey ≠ setKey') (register : Record) (output output' : Output) :
    view'.write (view.write register output) output' =
      view.write (view'.write register output') output := by
  apply Ascending.ext
  intro key
  rw [h'.get?_write, h.get?_write, h.get?_write, h'.get?_write]
  by_cases hkey : key = setKey
  · rw [if_pos hkey, if_pos hkey, if_neg (hkey ▸ hne), if_neg (hkey ▸ hne)]
  · rw [if_neg hkey, if_neg hkey]

/-- What an action gives depends on the value at its get key alone. -/
theorem Action.outputOn_write (a : Action) (h : view.Scoped getKey setKey)
    (h' : view'.Scoped getKey' setKey') (hne : setKey ≠ getKey') (register : Record)
    (output : Output) :
    a.outputOn view' (view.write register output) = a.outputOn view' register := by
  have hsame : (view.write register output).get? getKey' = register.get? getKey' := by
    rw [h.get?_write, if_neg hne.symm]
  rw [outputOn, outputOn, View.select, View.select, h'.reads]
  dsimp only
  rw [hsame]

end

/-! ## Two actions in either order -/

section

variable {a b : Action} {view view' : View} {getKey setKey getKey' setKey' : String}
variable {e : Evaluator}

/-- Two actions of which the second does not read what the first writes succeed when both do on
the register as it is. -/
theorem ends_two_actions (hfast : e.fastExit = true) (h : view.Scoped getKey setKey)
    (h' : view'.Scoped getKey' setKey') (hne : setKey ≠ getKey') (name name' : String)
    (register : Record) (w : World) :
    ∃ result, ((Component.action name view a).andThen (.action name' view' b)).Ends e register w
        result w ∧
      ∀ outcome, result = .ok outcome ↔
        ∃ output output', a.outputOn view register = .ok output ∧
          b.outputOn view' register = .ok output' ∧
          outcome = .next (view'.write (view.write register output) output') := by
  have hfirst := action_ends name view a e register w
  cases hoa : a.outputOn view register with
  | error error =>
    rw [hoa] at hfirst
    refine ⟨_, (ends_pair_iff hfast).mpr (.failed hfirst), fun outcome => ?_⟩
    simp
  | ok output =>
    rw [hoa] at hfirst
    have hsecond := action_ends name' view' b e (view.write register output) w
    rw [b.outputOn_write h h' hne register output] at hsecond
    cases hob : b.outputOn view' register with
    | error error =>
      rw [hob] at hsecond
      refine ⟨_, (ends_pair_iff hfast).mpr (.failedNext hfirst hsecond), fun outcome => ?_⟩
      simp
    | ok output' =>
      rw [hob] at hsecond
      refine ⟨_, (ends_pair_iff hfast).mpr (.completed hfirst hsecond), fun outcome => ?_⟩
      simp [eq_comm]

/-- Two actions, each of which reads one key and writes another beside the rest of the register,
can change places when neither writes what the other reads and they write two keys.  With fast
exit both orders end, and they leave the world as it was.  One succeeds just when the other
does, which is when each action does on the register as it is, and then both give one register,
which differs from that one at the two set keys at most. -/
theorem independent_actions_commute (hfast : e.fastExit = true) (h : view.Scoped getKey setKey)
    (h' : view'.Scoped getKey' setKey') (hread : setKey ≠ getKey') (hread' : setKey' ≠ getKey)
    (hwrite : setKey ≠ setKey') (name name' : String) (register : Record) (w : World) :
    let first := Component.action name view a
    let second := Component.action name' view' b
    ∃ result result', (first.andThen second).Ends e register w result w ∧
      (second.andThen first).Ends e register w result' w ∧
      (∀ outcome, result = .ok outcome ↔ result' = .ok outcome) ∧
      ((∃ outcome, result = .ok outcome) ↔
        (∃ outcome, first.Ends e register w (.ok outcome) w) ∧
        ∃ outcome, second.Ends e register w (.ok outcome) w) ∧
      ∀ outcome, result = .ok outcome → ∃ register', outcome = .next register' ∧
        ∀ key, key ≠ setKey → key ≠ setKey' → register'.get? key = register.get? key := by
  intro first second
  obtain ⟨result, hends, hresult⟩ :=
    ends_two_actions (a := a) (b := b) hfast h h' hread name name' register w
  obtain ⟨result', hends', hresult'⟩ :=
    ends_two_actions (a := b) (b := a) hfast h' h hread' name' name register w
  refine ⟨result, result', hends, hends', fun outcome => ?_, ?_, fun outcome hok => ?_⟩
  · rw [hresult, hresult']
    constructor
    · rintro ⟨output, output', ha, hb, rfl⟩
      exact ⟨output', output, hb, ha, by rw [h.write_comm h' hwrite]⟩
    · rintro ⟨output', output, hb, ha, rfl⟩
      exact ⟨output, output', ha, hb, by rw [h.write_comm h' hwrite]⟩
  · rw [action_succeeds_iff, action_succeeds_iff]
    constructor
    · rintro ⟨outcome, hok⟩
      obtain ⟨output, output', ha, hb, -⟩ := (hresult outcome).mp hok
      exact ⟨⟨output, ha⟩, output', hb⟩
    · rintro ⟨⟨output, ha⟩, output', hb⟩
      exact ⟨_, (hresult _).mpr ⟨output, output', ha, hb, rfl⟩⟩
  · obtain ⟨output, output', -, -, rfl⟩ := (hresult outcome).mp hok
    refine ⟨_, rfl, fun key hne hne' => ?_⟩
    rw [h'.get?_write, if_neg hne', h.get?_write, if_neg hne]

end

/-- A view that puts the output at its set key, beside the other entries. -/
def besideAt (getKey setKey : String) (replace : Replacing) : View :=
  ⟨some getKey, some setKey, defaultOutputKey, replace⟩

/-- A number that is doubled where it is, and a mapping that is nested under another key. -/
theorem doubling_and_nesting_commute :
    let e := Evaluator.make "Root" .off true 0
    let double := Component.action "Double" (besideAt "n" "n" .inplace) Stock.double
    let nest := Component.action "Nest" (besideAt "m" "nested" .local) (.nestToKey "inner")
    let given : Record := Ascending.ofList [("n", .int 4), ("m", .mapping ∅)]
    let done : Record := Ascending.ofList
      [("n", .int 8), ("m", .mapping ∅), ("nested", showFields [("inner", .mapping ∅)])]
    (double.andThen nest).Ends e given World.empty (.ok (.next done)) World.empty ∧
    (nest.andThen double).Ends e given World.empty (.ok (.next done)) World.empty ∧
    ∃ outcome, nest.Ends e given World.empty (.ok outcome) World.empty := by
  intro e double nest given done
  have hdouble : (besideAt "n" "n" .inplace).Scoped "n" "n" := ⟨rfl, rfl, by decide⟩
  have hnest : (besideAt "m" "nested" .local).Scoped "m" "nested" := ⟨rfl, rfl, by decide⟩
  obtain ⟨result, result', hends, hends', hsame, halone, -⟩ :=
    independent_actions_commute (a := Stock.double) (b := .nestToKey "inner") (e := e) rfl
      hdouble hnest (by decide) (by decide) (by decide) "Double" "Nest" given World.empty
  have hdone : (double.andThen nest).Ends e given World.empty (.ok (.next done)) World.empty :=
    ⟨[], 0, rfl⟩
  have hresult : result = .ok (.next done) := (hends.unique hdone).1
  have hresult' : result' = .ok (.next done) := (hsame _).mp hresult
  exact ⟨hdone, hresult' ▸ hends', (halone.mp ⟨_, hresult⟩).2⟩

end Pipeline
