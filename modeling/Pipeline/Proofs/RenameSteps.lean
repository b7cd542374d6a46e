import Pipeline.Proofs.Dict
import Pipeline.Proofs.RenameGrammar
import Pipeline.Proofs.Sequences
import Pipeline.Proofs.ViewWrites

/-!
# A query and its renames

A query renames in a copy of what its view selects and writes the copy back at the end.  A schema
of the same renames writes back after each of them, and selects again.  That comes to the same
where the view has one place: it selects what was written (`View.OnePlace.select_write`), and a
second output takes the place of the first (`View.OnePlace.write_write`).  The whole register in
place is not such a view (`renames_need_one_place`).

`View.Renamed` says how either ends, given what renaming gives.  A failure is told by its root
cause, since the two have different layers.
-/

namespace Pipeline

/-! ## Views of one place -/

/-- The view reads where it writes: the whole register, which an output replaces, or one key. -/
inductive View.OnePlace (view : View) : Prop
  | root : view.getKey = none → view.setKey = none → view.replace ≠ .inplace → OnePlace view
  | key (key : String) : view.getKey = some key → view.setKey = some key → OnePlace view

/-- The actions that rename replace the register, so that their own view has one place. -/
theorem Action.onePlace_of_renames (query : RenameQuery) (names : Rename) :
    (View.root (renameQuery query).defaultKey (renameQuery query).replace).OnePlace ∧
      (View.root (rename names).defaultKey (rename names).replace).OnePlace :=
  ⟨.root rfl rfl nofun, .root rfl rfl nofun⟩

namespace View

variable {view : View}

/-- A mapping for a key of its own is stored there. -/
theorem get?_write_mapping {key : String} (h : view.setKey = some key) (register r : Record)
    (k : String) :
    (view.write register (.mapping r)).get? k =
      if k = key then some (.mapping r)
      else if view.replace = .global then none else register.get? k := by
  have hstored : view.stored? (.mapping r) = some (.mapping r) := by rw [stored?, h]; rfl
  rw [write_of_stored hstored, get?_store, h, Option.getD_some]

/-- What was written is selected. -/
theorem OnePlace.select_write (h : view.OnePlace) (register r : Record) :
    view.select (view.write register (.mapping r)) = .ok (.mapping r) := by
  cases h with
  | root hget hset hreplace => simp [select, write, hget, hset, hreplace]
  | key key hget hset => simp [select, hget, get?_write_mapping hset]

/-- What was written last stays. -/
theorem OnePlace.write_write (h : view.OnePlace) (register r r' : Record) :
    view.write (view.write register (.mapping r)) (.mapping r') =
      view.write register (.mapping r') := by
  cases h with
  | root hget hset hreplace => simp [write, hset, hreplace]
  | key key hget hset =>
    apply Ascending.ext
    intro k
    simp only [get?_write_mapping hset]
    by_cases hk : k = key
    · simp [hk]
    · by_cases hreplace : view.replace = .global <;> simp [hk, hreplace]

/-- The mapping that the view selects. -/
def selectRecord (view : View) (register : Record) : Except ExecutionError Record :=
  (view.select register).bind Value.expectRecord

theorem OnePlace.selectRecord_write (h : view.OnePlace) (register r : Record) :
    view.selectRecord (view.write register (.mapping r)) = .ok r := by
  rw [selectRecord, h.select_write]
  rfl

/-- The register has the renamed mapping written back, or the cause stands in layers. -/
inductive Renamed (view : View) (register : Record) :
    Except ExecutionError Record → Except ExecutionError Outcome → Prop
  | written (r : Record) :
      Renamed view register (.ok r) (.ok (.next (view.write register (.mapping r))))
  | failed {cause error : ExecutionError} :
      error.rootCause = cause.rootCause → Renamed view register (.error cause) (.error error)

/-- Two answers for one renaming are the same register, or errors with the same root cause. -/
theorem Renamed.both {register : Record} {result : Except ExecutionError Record}
    {answer answer' : Except ExecutionError Outcome} (h : view.Renamed register result answer)
    (h' : view.Renamed register result answer') :
    (∃ r, result = .ok r ∧ answer = .ok (.next (view.write register (.mapping r))) ∧
        answer' = answer) ∨
      ∃ cause error error', result = .error cause ∧ answer = .error error ∧
        answer' = .error error' ∧ error.rootCause = cause.rootCause ∧
        error'.rootCause = cause.rootCause := by
  cases h with
  | written r =>
    cases h'
    exact .inl ⟨r, rfl, rfl, rfl⟩
  | failed hcause =>
    cases h' with
    | failed hcause' => exact .inr ⟨_, _, _, rfl, rfl, rfl, hcause, hcause'⟩

/-- A mapping written before makes no difference. -/
theorem OnePlace.renamed_write_iff (hview : view.OnePlace) {register r : Record}
    {result : Except ExecutionError Record} {answer : Except ExecutionError Outcome} :
    view.Renamed (view.write register (.mapping r)) result answer ↔
      view.Renamed register result answer := by
  constructor
  · intro h
    cases h with
    | written r' =>
      rw [hview.write_write]
      exact .written r'
    | failed hcause => exact .failed hcause
  · intro h
    cases h with
    | written r' =>
      rw [← hview.write_write register r r']
      exact .written r'
    | failed hcause => exact .failed hcause

end View

/-! ## Actions that rename -/

section

variable {view : View} {e : Evaluator}

theorem Action.outputOn_rename (rename : Rename) (view : View) (register : Record) :
    (Action.rename rename).outputOn view register =
      ((view.selectRecord register).bind (applyRename · rename)).map .mapping := by
  rw [outputOn, View.selectRecord]
  rcases view.select register with error | v
  · rfl
  · simp only [Except.bind, Action.rename, bind]
    rcases v.expectRecord with error | r
    · rfl
    · dsimp only
      cases applyRename r rename <;> rfl

theorem Action.outputOn_renameQuery (query : RenameQuery) (view : View) (register : Record) :
    (Action.renameQuery query).outputOn view register =
      ((view.selectRecord register).bind (applyRenames query.renames)).map .mapping := by
  rw [outputOn, View.selectRecord]
  rcases view.select register with error | v
  · rfl
  · simp only [Except.bind, Action.renameQuery, bind]
    rcases v.expectRecord with error | r
    · rfl
    · dsimp only
      cases applyRenames query.renames r <;> rfl

/-- An action that gives a mapping ends with the mapping written back. -/
theorem action_renamed {a : Action} {register : Record} {result : Except ExecutionError Record}
    (h : a.outputOn view register = result.map .mapping) (name : String) (e : Evaluator)
    (n : Nat) (w : World) :
    ∃ answer, ((Component.action name view a).run n e register).ending w = some (answer, w) ∧
      view.Renamed register result answer := by
  obtain ⟨events, hrun⟩ := runAction_apply name view a e register w
  rw [h] at hrun
  refine ⟨_, Process.ending_ofEffect hrun, ?_⟩
  cases result with
  | error cause => exact .failed rfl
  | ok r => exact .written r

/-- The step renames one key on the view. -/
def IsRenameStep (view : View) (step : Component) (rename : Rename) : Prop :=
  ∃ name, step = .action name view (.rename rename)

/-- A step of a schema, then those that follow it on the register with the mapping written
back. -/
theorem runSteps_cons_renamed (hfast : e.fastExit = true) {step : Component}
    {rename : Rename} (hstep : IsRenameStep view step rename) {rest : List Component}
    {name : String} {index n : Nat} {register : Record} {w : World}
    {follow : Record → Except ExecutionError Record}
    (hrest : ∀ r, ∃ answer,
      (runSteps n name rest e (index + 1) (view.write register (.mapping r))).ending w =
        some (answer, w) ∧ view.Renamed register (follow r) answer) :
    ∃ answer, (runSteps n name (step :: rest) e index register).ending w = some (answer, w) ∧
      view.Renamed register
        (((view.selectRecord register).bind (Action.applyRename · rename)).bind follow) answer := by
  obtain ⟨stepName, rfl⟩ := hstep
  obtain ⟨answer, hends, hrenamed⟩ :=
    action_renamed (Action.outputOn_rename rename view register) stepName e n w
  rw [runSteps_cons, ending_afterStep, hends]
  generalize (view.selectRecord register).bind (Action.applyRename · rename) = renamed at hrenamed ⊢
  cases hrenamed with
  | written r => exact hrest r
  | failed hcause =>
    simp only [hfast, if_true]
    exact ⟨_, rfl, .failed hcause⟩

/-- The steps rename as the list of renames does, from a register with a mapping written back. -/
theorem runSteps_renamed (hview : view.OnePlace) (hfast : e.fastExit = true)
    {steps : List Component} {renames : List Rename}
    (hsteps : List.Forall₂ (IsRenameStep view) steps renames) (name : String) (index n : Nat)
    (register r : Record) (w : World) :
    ∃ answer,
      (runSteps n name steps e index (view.write register (.mapping r))).ending w =
        some (answer, w) ∧ view.Renamed register (Action.applyRenames renames r) answer := by
  induction hsteps generalizing index r with
  | nil => exact ⟨_, rfl, .written r⟩
  | @cons step rename rest renames hstep _ ih =>
    have hrest (r' : Record) : ∃ answer,
        (runSteps n name rest e (index + 1)
          (view.write (view.write register (.mapping r)) (.mapping r'))).ending w =
            some (answer, w) ∧
          view.Renamed (view.write register (.mapping r)) (Action.applyRenames renames r')
            answer := by
      simp only [hview.write_write, hview.renamed_write_iff]
      exact ih (index + 1) r'
    have hall := runSteps_cons_renamed hfast hstep hrest
    simp only [hview.selectRecord_write, hview.renamed_write_iff] at hall
    exact hall

/-- From any register the steps rename what the view selects, if there is a step. -/
theorem runSteps_renamed_of_ne_nil (hview : view.OnePlace) (hfast : e.fastExit = true)
    {steps : List Component} {renames : List Rename}
    (hsteps : List.Forall₂ (IsRenameStep view) steps renames) (hne : renames ≠ []) (name : String)
    (n : Nat) (register : Record) (w : World) :
    ∃ answer, (runSteps n name steps e 0 register).ending w = some (answer, w) ∧
      view.Renamed register ((view.selectRecord register).bind (Action.applyRenames renames))
        answer := by
  cases hsteps with
  | nil => exact absurd rfl hne
  | @cons step rename rest renames hstep hsteps =>
    have hall := runSteps_cons_renamed hfast hstep
      (fun r => runSteps_renamed hview hfast hsteps name 1 n register r w)
    have hfold : ((view.selectRecord register).bind (Action.applyRename · rename)).bind
        (Action.applyRenames renames) =
          (view.selectRecord register).bind (Action.applyRenames (rename :: renames)) := by
      cases view.selectRecord register <;> rfl
    rwa [hfold] at hall

end

/-! ## What renaming does -/

section

variable {view : View} {renames : List Rename} {rename : Rename} {register r r' : Record}
variable {error : ExecutionError}

theorem View.selectRecord_eq_ok : view.selectRecord register = .ok r ↔
    view.select register = .ok (.mapping r) := by
  rw [selectRecord]
  rcases hselect : view.select register with error | v
  · simp [Except.bind]
  · constructor
    · intro h
      rw [Value.eq_of_expectRecord h]
    · intro h
      cases h
      rfl

/-- A view selects no mapping where it selects nothing, or another value. -/
theorem View.selectRecord_error (h : view.selectRecord register = .error error) :
    (∃ key, error = .missingKey key ∧ ∀ v, view.select register ≠ .ok v) ∨
      ∃ v, view.select register = .ok v ∧ (∀ r, v ≠ .mapping r) ∧
        error = .invalidInput (.notMapping v.kind) := by
  rw [selectRecord] at h
  rcases hselect : view.select register with cause | v
  · rw [hselect] at h
    cases h
    unfold select at hselect
    split at hselect
    · cases hselect
    · split at hselect
      · cases hselect
      · cases hselect
        exact .inl ⟨_, rfl, nofun⟩
  · rw [hselect] at h
    refine .inr ⟨v, rfl, ?_⟩
    cases v with
    | mapping r => cases h
    | null | bool | number | string | list => cases h; exact ⟨nofun, rfl⟩

theorem Action.applyRename_cases (r : Record) (rename : Rename) :
    (applyRename r rename = .error (.missingKey rename.old)) ∨
      ∃ v, r.get? rename.old = some v ∧
        applyRename r rename = .ok ((r.erase rename.old).insert rename.new v) := by
  unfold applyRename
  cases r.get? rename.old with
  | none => exact .inl rfl
  | some v => exact .inr ⟨v, rfl, rfl⟩

/-- Renaming fails at a key that is not there. -/
theorem Action.applyRenames_error (h : applyRenames renames r = .error error) :
    ∃ key, error = .missingKey key := by
  induction renames generalizing r with
  | nil => cases h
  | cons rename rest ih =>
    rw [applyRenames] at h
    obtain hfail | ⟨v, -, hok⟩ := applyRename_cases r rename
    · rw [hfail] at h
      cases h
      exact ⟨_, rfl⟩
    · rw [hok] at h
      exact ih h

/-- Renaming what a view selects fails at a missing key, or at a value that is no mapping. -/
theorem Action.renaming_error
    (h : (view.selectRecord register).bind (applyRenames renames) = .error error) :
    error.rootCause = error ∧
      ((∃ key, error = .missingKey key ∧ ∀ v, view.select register = .ok v → ∃ r, v = .mapping r) ∨
        ∃ v, view.select register = .ok v ∧ (∀ r, v ≠ .mapping r) ∧
          error = .invalidInput (.notMapping v.kind)) := by
  cases hselect : view.selectRecord register with
  | error cause =>
    rw [hselect] at h
    cases h
    obtain ⟨key, rfl, hnone⟩ | ⟨v, hv, hmapping, rfl⟩ := View.selectRecord_error hselect
    · exact ⟨rfl, .inl ⟨key, rfl, fun v hv => absurd hv (hnone v)⟩⟩
    · exact ⟨rfl, .inr ⟨v, hv, hmapping, rfl⟩⟩
  | ok r =>
    rw [hselect] at h
    obtain ⟨key, rfl⟩ := applyRenames_error h
    refine ⟨rfl, .inl ⟨key, rfl, fun v hv => ⟨r, ?_⟩⟩⟩
    exact Except.ok.inj (hv.symm.trans (View.selectRecord_eq_ok.mp hselect))

/-- No rename meets its new key, unless as its old one, in the mapping that the renames before it
give. -/
def NewKeysFree (renames : List Rename) (r : Record) : Prop :=
  ∀ before rename after r', renames = before ++ rename :: after →
    Action.applyRenames before r = .ok r' → r'.contains rename.new = true → rename.new = rename.old

theorem newKeysFree_nil (r : Record) : NewKeysFree [] r := by
  intro before rename after r' hsplit
  simp at hsplit

theorem newKeysFree_cons {rest : List Rename} : NewKeysFree (rename :: rest) r ↔
    (r.contains rename.new = true → rename.new = rename.old) ∧
      ∀ r', Action.applyRename r rename = .ok r' → NewKeysFree rest r' := by
  constructor
  · intro h
    refine ⟨h [] rename rest r rfl rfl, fun r' happly before next after r'' hsplit hbefore => ?_⟩
    refine h (rename :: before) next after r'' (by rw [hsplit]; rfl) ?_
    rw [Action.applyRenames, happly]
    exact hbefore
  · rintro ⟨hhead, hrest⟩ before next after r'' hsplit hbefore
    cases before with
    | nil =>
      cases hsplit
      cases hbefore
      exact hhead
    | cons first before =>
      obtain ⟨rfl, rfl⟩ := List.cons.inj hsplit
      rw [Action.applyRenames] at hbefore
      cases happly : Action.applyRename r rename with
      | error error => rw [happly] at hbefore; cases hbefore
      | ok r' =>
        rw [happly] at hbefore
        exact hrest r' happly before next after r'' rfl hbefore

/-- A rename that covers no other entry keeps the values. -/
theorem Action.values_applyRename (h : applyRename r rename = .ok r')
    (hfree : r.contains rename.new = true → rename.new = rename.old) :
    r'.values.Perm r.values := by
  obtain hfail | ⟨v, hentry, hok⟩ := applyRename_cases r rename
  · rw [hfail] at h
    cases h
  · rw [hok] at h
    cases h
    have hgone : (r.erase rename.old).contains rename.new = false := by
      rw [Ascending.contains_erase]
      cases hnew : r.contains rename.new with
      | false => simp
      | true => simp [hfree hnew]
    exact (Ascending.values_insert_perm hgone v).trans (Ascending.values_perm_erase hentry).symm

theorem Action.values_applyRenames (h : applyRenames renames r = .ok r')
    (hfree : NewKeysFree renames r) : r'.values.Perm r.values := by
  induction renames generalizing r with
  | nil =>
    cases h
    exact .refl _
  | cons rename rest ih =>
    obtain ⟨hhead, hrest⟩ := newKeysFree_cons.mp hfree
    rw [applyRenames] at h
    cases happly : applyRename r rename with
    | error error => rw [happly] at h; cases h
    | ok next =>
      rw [happly] at h
      exact (ih h (hrest next happly)).trans (values_applyRename happly hhead)

end

/-! ## The result -/

/-- With fast exit, an action with a query and a schema of its renames in order, each on the view
of the action, end alike where that view has one place, and leave the world as it was.

Both give one register, which is the given one with the renamed mapping written back; or both fail
with one root cause, which is a missing key, or the value that was selected where that is no
mapping.  Where no rename meets its new key, unless as its old one, the renamed mapping has the
values of the one that was selected, and as many keys. -/
theorem query_is_its_renames {text : String} {query : RenameQuery}
    (hquery : RenameQuery.parse text = .ok query) {view : View} (hview : view.OnePlace)
    {e : Evaluator} (hfast : e.fastExit = true) {steps : List Component}
    (hsteps : List.Forall₂ (IsRenameStep view) steps query.renames)
    (queryName schemaName : String) (register : Record) (w : World) :
    ∃ answer answer',
      (Component.action queryName view (.renameQuery query)).Ends e register w answer w ∧
      (Component.schema schemaName steps).Ends e register w answer' w ∧
      ((∃ r r', view.select register = .ok (.mapping r) ∧
          answer = .ok (.next (view.write register (.mapping r'))) ∧ answer' = answer ∧
          view.select (view.write register (.mapping r')) = .ok (.mapping r') ∧
          (NewKeysFree query.renames r → r'.values.Perm r.values ∧ r'.size = r.size)) ∨
        ∃ error error' cause, answer = .error error ∧ answer' = .error error' ∧
          error.rootCause = cause ∧ error'.rootCause = cause ∧
          ((∃ key, cause = .missingKey key ∧
              ∀ v, view.select register = .ok v → ∃ r, v = .mapping r) ∨
            ∃ v, view.select register = .ok v ∧ (∀ r, v ≠ .mapping r) ∧
              cause = .invalidInput (.notMapping v.kind))) := by
  obtain ⟨answer, hends, hrenamed⟩ := action_renamed
    (Action.outputOn_renameQuery query view register) queryName e 0 w
  obtain ⟨answer', hends', hrenamed'⟩ := runSteps_renamed_of_ne_nil hview hfast hsteps
    (RenameQuery.renames_ne_nil_of_parse hquery) schemaName 0 register w
  refine ⟨answer, answer', Component.ends_iff.mpr ⟨0, hends⟩, Component.ends_iff.mpr ⟨0, hends'⟩,
    ?_⟩
  obtain ⟨r', hresult, rfl, rfl⟩ | ⟨cause, error, error', hresult, rfl, rfl, hcause, hcause'⟩ :=
    hrenamed.both hrenamed'
  · cases hselect : view.selectRecord register with
    | error error =>
      rw [hselect] at hresult
      cases hresult
    | ok r =>
      rw [hselect] at hresult
      refine .inl ⟨r, r', View.selectRecord_eq_ok.mp hselect, rfl, rfl,
        hview.select_write register r', fun hfree => ?_⟩
      have hvalues := Action.values_applyRenames hresult hfree
      refine ⟨hvalues, ?_⟩
      rw [← Ascending.length_values, ← Ascending.length_values, hvalues.length_eq]
  · obtain ⟨hself, hkind⟩ := Action.renaming_error hresult
    rw [hself] at hcause hcause'
    exact .inr ⟨error, error', cause, rfl, rfl, hcause, hcause', hkind⟩

/-- Two keys change places through a third. -/
def swapQuery : RenameQuery := ⟨"t<-a; a<-b; b<-t", [⟨"a", "t"⟩, ⟨"b", "a"⟩, ⟨"t", "b"⟩]⟩

/-- A mapping with the values at the two keys. -/
def twoKeys (a b : Int) : Record := Ascending.ofList [("a", .int a), ("b", .int b), ("c", .null)]

/-- A register that holds the mapping at a key. -/
def holding (r : Record) : Record := Ascending.ofList [("k", .mapping r), ("z", .bool true)]

/-- The view of that key. -/
def heldView : View := ⟨some "k", some "k", defaultOutputKey, .local⟩

/-- The renames of the swap as steps on that view. -/
def swapSteps : List Component :=
  swapQuery.renames.map fun rename => .action "RenameAttribute" heldView (.rename rename)

theorem swapQuery_is_its_renames :
    RenameQuery.parse swapQuery.text = .ok swapQuery ∧ heldView.OnePlace ∧
    List.Forall₂ (IsRenameStep heldView) swapSteps swapQuery.renames ∧
    NewKeysFree swapQuery.renames (twoKeys 1 2) ∧
    (Component.schema "Renames" swapSteps).Ends (.make "Root" .off true 0) (holding (twoKeys 1 2))
      World.empty (.ok (.next (holding (twoKeys 2 1)))) World.empty ∧
    (twoKeys 2 1).values.Perm (twoKeys 1 2).values := by
  have hquery : RenameQuery.parse swapQuery.text = .ok swapQuery := rfl
  have hview : heldView.OnePlace := .key "k" rfl rfl
  have hsteps : List.Forall₂ (IsRenameStep heldView) swapSteps swapQuery.renames :=
    .cons ⟨_, rfl⟩ (.cons ⟨_, rfl⟩ (.cons ⟨_, rfl⟩ .nil))
  have hfree : NewKeysFree swapQuery.renames (twoKeys 1 2) := by
    refine newKeysFree_cons.mpr ⟨by decide, fun r h => ?_⟩
    obtain rfl := Except.ok.inj h
    refine newKeysFree_cons.mpr ⟨by decide, fun r h => ?_⟩
    obtain rfl := Except.ok.inj h
    exact newKeysFree_cons.mpr ⟨by decide, fun r _ => newKeysFree_nil r⟩
  obtain ⟨answer, answer', hends, hends', hsame⟩ := query_is_its_renames hquery hview
    (e := .make "Root" .off true 0) rfl hsteps "Query" "Renames" (holding (twoKeys 1 2)) World.empty
  have hswapped : (Component.action "Query" heldView (.renameQuery swapQuery)).Ends
      (.make "Root" .off true 0) (holding (twoKeys 1 2)) World.empty
      (.ok (.next (holding (twoKeys 2 1)))) World.empty := ⟨[], 0, rfl⟩
  obtain ⟨rfl, -⟩ := hends.unique hswapped
  obtain ⟨r, r', hselect, hregister, rfl, hback, hvalues⟩ | ⟨_, _, _, herror, _⟩ := hsame
  · obtain rfl := Value.mapping.inj (Except.ok.inj hselect)
    rw [← Outcome.next.inj (Except.ok.inj hregister)] at hback
    obtain rfl := Value.mapping.inj (Except.ok.inj hback)
    exact ⟨hquery, hview, hsteps, hfree, hends', (hvalues hfree).1⟩
  · cases herror

/-- One value is renamed twice. -/
def chainQuery : RenameQuery := ⟨"b<-a; c<-b", [⟨"a", "b"⟩, ⟨"b", "c"⟩]⟩

/-- The view of the whole register that an output is added to. -/
def addingView : View := .root defaultOutputKey .inplace

/-- The renames of the chain as steps on that view. -/
def chainSteps : List Component :=
  chainQuery.renames.map fun rename => .action "RenameAttribute" addingView (.rename rename)

/-- A view of the whole register has to replace it.  Where an output is added to the register,
the old key of a rename stays: the schema leaves the keys of the first renames too, and the
query the key of the last only. -/
theorem renames_need_one_place :
    ¬ ∀ (query : RenameQuery) (view : View) (e : Evaluator) (steps : List Component)
      (queryName schemaName : String) (register : Record) (w : World) (outcome : Outcome),
      RenameQuery.parse query.text = .ok query → view.getKey = none → view.setKey = none →
      e.fastExit = true → List.Forall₂ (IsRenameStep view) steps query.renames →
      (Component.action queryName view (.renameQuery query)).Ends e register w (.ok outcome) w →
      (Component.schema schemaName steps).Ends e register w (.ok outcome) w := by
  intro h
  have hquery : (Component.action "Query" addingView (.renameQuery chainQuery)).Ends
      (.make "Root" .off true 0) (Ascending.ofList [("a", .int 1)]) World.empty
      (.ok (.next (Ascending.ofList [("a", .int 1), ("c", .int 1)]))) World.empty := ⟨_, 0, rfl⟩
  have hschema : (Component.schema "Renames" chainSteps).Ends
      (.make "Root" .off true 0) (Ascending.ofList [("a", .int 1)]) World.empty
      (.ok (.next (Ascending.ofList [("a", .int 1), ("b", .int 1), ("c", .int 1)])))
      World.empty := ⟨_, 0, rfl⟩
  have hsteps : List.Forall₂ (IsRenameStep addingView) chainSteps chainQuery.renames :=
    .cons ⟨_, rfl⟩ (.cons ⟨_, rfl⟩ .nil)
  have hsame := h chainQuery _ _ _ _ "Renames" _ _ _ rfl rfl rfl rfl hsteps hquery
  have houtcome := Except.ok.inj (hsame.unique hschema).1
  exact absurd (Outcome.next.inj houtcome) (by decide)

end Pipeline
