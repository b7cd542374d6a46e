import Pipeline.Proofs.Labels

/-!
# The list mode of an executable

An executable whose view selects a list runs on each element of it, in a loop of its own, and
merges each output into its element.  A loop over the elements, with the executable on the
whole element as its body, is another program: each element runs in a child evaluator, and
the output is written through a view.

They agree wherever the executable does not depend on the name of its evaluator
(`list_mode_agrees_with_forEach`).  The errors have other layers, so the runs are alike up to
the cause of an error (`SameCause`).
-/

namespace Pipeline

/-! ## The two programs -/

/-- The executable on the list at a key, with its results at another. -/
def Executable.listMode (x : Executable) (getKey setKey : String) (replace : Replacing) :
    Component :=
  .executable x.name ⟨some getKey, some setKey, defaultOutputKey, replace⟩ x

/-- The loop over the list at a key, with the executable on each element. -/
def Executable.loopMode (x : Executable) (name getKey setKey : String) : Component :=
  .forEach name (.executable x.name (.root defaultOutputKey .inplace) x) getKey setKey

/-- The component fails at an element of the list at the key.  It is done with the elements in
front where there are no others, and it ends in one world, for one cause, whatever comes after
the element. -/
structure Component.FailsAt (c : Component) (e : Evaluator) (register : Record) (key : String)
    (w : World) (front : List Value) (item : Value) (cause : ExecutionError) (w' : World) :
    Prop where
  done : ∃ register' mid,
    c.Ends e (register.insert key (.list front)) w (.ok (.next register')) mid
  fails : ∀ back, ∃ error,
    c.Ends e (register.insert key (.list (front ++ item :: back))) w (.error error) w' ∧
      error.rootCause = cause

/-! ## Runs with one cause -/

section

variable {x : Executable} {e : Evaluator} {register : Record}

theorem runExecutable_of_select {view : View} {data : Value} (h : view.select register = .ok data)
    (name : String) :
    runExecutable name view x e register = (do
      let result ← executeSelected name x e data
      Effect.emit (e.logger.log (.executableExecuted name result.2))
      pure (.next (view.write register result.1))) := by
  funext w
  rw [runExecutable, h]
  exact Effect.ofExcept_ok_bind _ _ _

/-- An executable on a whole element merges its output into it. -/
theorem sameCause_root (name key : String) (record : Record) :
    SameCause
      (Process.ofEffect (x.execute record e) >>= fun output =>
        pure (.next (record.merge output)))
      (Process.ofEffect (runExecutable name (.root key .inplace) x e record)) := by
  have hselect : (View.root key .inplace).select record = .ok (.mapping record) := rfl
  rw [runExecutable_of_select hselect, executeSelected, Effect.bind_assoc, Process.ofEffect_bind]
  refine (AlikeUpTo.refl _).bind fun output => ?_
  rw [Effect.pure_bind]
  exact AlikeUpTo.of_ending fun w => rfl

/-- The list mode stores the results at its key, or fails as its loop does. -/
theorem ending_listMode {getKey setKey : String} {items : List Value} {replace : Replacing}
    {w w' : World} {result : Except ExecutionError (List Value)} {events : List Event}
    (hlist : register.get? getKey = some (.list items)) (hreplace : replace ≠ .global)
    (h : executeEach x.name x e items w = ⟨result, events, w'⟩) (rounds : Nat) :
    ((x.listMode getKey setKey replace).run rounds e register).ending w =
      some (result.map fun results => .next (register.insert setKey (.list results)), w') := by
  have hselect : View.select ⟨some getKey, some setKey, defaultOutputKey, replace⟩ register =
      .ok (.list items) := by
    simp only [View.select, hlist]
  have hwrite (results : List Value) :
      View.write ⟨some getKey, some setKey, defaultOutputKey, replace⟩ register
        (.value (.list results)) = register.insert setKey (.list results) := by
    rw [View.write, View.store, if_neg hreplace]
    rfl
  change (Process.ofEffect (runExecutable x.name _ x e register)).ending w = _
  rw [runExecutable_of_select hselect, executeSelected, Effect.bind_assoc]
  cases result with
  | error error => exact Process.ending_ofEffect (Effect.bind_of_error h)
  | ok results =>
    rw [Process.ending, Process.ofEffect, Effect.bind_of_ok h, Effect.pure_bind, hwrite]
    rfl

theorem listMode_ends {getKey : String} {items : List Value} {replace : Replacing} {w w' : World}
    {result : Except ExecutionError (List Value)} {events : List Event}
    (hlist : register.get? getKey = some (.list items)) (hreplace : replace ≠ .global)
    (h : executeEach x.name x e items w = ⟨result, events, w'⟩) (setKey : String) :
    (x.listMode getKey setKey replace).Ends e register w
      (result.map fun results => .next (register.insert setKey (.list results))) w' :=
  Component.ends_iff.mpr ⟨0, ending_listMode hlist hreplace h 0⟩

theorem sameCause_listMode {getKey : String} {items : List Value} {replace : Replacing}
    (hlist : register.get? getKey = some (.list items)) (hreplace : replace ≠ .global)
    (setKey : String) (rounds : Nat) :
    SameCause
      (Process.ofEffect (executeEach x.name x e items) >>= fun results =>
        pure (.next (register.insert setKey (.list results))))
      ((x.listMode getKey setKey replace).run rounds e register) := by
  refine AlikeUpTo.of_ending fun w => ?_
  cases hrun : executeEach x.name x e items w with
  | mk result events w' =>
    rw [ending_listMode hlist hreplace hrun]
    cases result with
    | error error => exact Process.ending_bind_of_error (Process.ending_ofEffect hrun)
    | ok results => exact Process.ending_bind_of_ok (Process.ending_ofEffect hrun)

/-- An executable that ignores names fails for one cause under any of them. -/
theorem sameCause_execute (hx : x.IgnoresNames) {e' : Evaluator} (he : e.unnamed = e'.unnamed)
    (record : Record) :
    SameCause (Process.ofEffect (x.execute record e)) (Process.ofEffect (x.execute record e')) := by
  refine AlikeUpTo.act_mapError
    (Layer.alike_rootCause (.executable x.name) (.executable x.name)) ?_
  refine AlikeUpTo.act_bind (AlikeUpTo.refl _) fun input => ?_
  exact AlikeUpTo.act_bind (hx input e e' he).sameCause fun output => AlikeUpTo.refl _

/-- Both programs do the same to an element. -/
theorem sameCause_element (hx : x.IgnoresNames) (rounds : Nat) (name : String) (record : Record) :
    SameCause
      (Process.ofEffect (x.execute record e) >>= fun output =>
        pure (.next (record.merge output)))
      (evaluateIn (e.child name)
        ((Component.executable x.name (.root defaultOutputKey .inplace) x).run rounds
          (e.child name) record)) := by
  have hchild : e.unnamed = (e.child name).unnamed := (e.unnamed_child name).symm
  have hmerge := (sameCause_execute hx hchild record).bind fun output =>
    AlikeUpTo.refl (pure (.next (record.merge output)) : Course Outcome)
  exact hmerge.trans
    ((sameCause_root x.name defaultOutputKey record).trans (SameCause.within_self _ _).symm)

/-- Both loops give the same list, or fail for one cause. -/
theorem sameCause_loops {body : Record → Course Outcome} (name : String)
    (hbody : ∀ record, SameCause
      (Process.ofEffect (x.execute record e) >>= fun output =>
        pure (.next (record.merge output))) (body record)) (items : List Value) :
    SameCause
      (Process.ofEffect (executeEach name x e items) >>= fun results => pure (some results))
      (runEach body items) := by
  induction items with
  | nil => exact AlikeUpTo.of_ending fun w => rfl
  | cons item rest ih =>
    have hrecord : SameCause
        (Process.ofExcept (item.expectRecord.mapError (.executable name)))
        (Process.ofExcept item.expectRecord) := by
      refine AlikeUpTo.ofExcept ?_
      cases item.expectRecord <;> rfl
    have hsteps : (Process.ofEffect (executeEach name x e (item :: rest)) >>= fun results =>
          pure (some results)) =
        Process.ofEffect (do
          let record ← Effect.ofExcept (item.expectRecord.mapError (.executable name))
          let output ← x.execute record e
          let results ← executeEach name x e rest
          pure (some (.mapping (record.merge output) :: results))) := by
      refine (Process.ofEffect_bind _ fun results => pure (some results)).symm.trans ?_
      rw [executeEach]
      simp only [Effect.bind_assoc, Effect.pure_bind]
    rw [hsteps, Process.ofEffect_bind]
    refine hrecord.bind fun record => ?_
    -- The output is merged before the loop looks at the outcome, and the results of the rest
    -- are listed before it looks at those.
    refine AlikeUpTo.trans ?_ ((AlikeUpTo.bind_pure_bind _ _ _).symm.trans
      ((hbody record).bind fun _ => AlikeUpTo.refl _))
    rw [Process.ofEffect_bind]
    refine (AlikeUpTo.refl _).bind fun output => ?_
    refine AlikeUpTo.trans ?_ ((AlikeUpTo.bind_pure_bind _ _ _).symm.trans
      (ih.bind fun _ => AlikeUpTo.refl _))
    rw [Process.ofEffect_bind]
    exact AlikeUpTo.refl _

/-- On a list at the key, both programs give the same register, or fail for one cause. -/
theorem sameCause_modes (hx : x.IgnoresNames) {getKey : String} {items : List Value}
    {replace : Replacing} (hlist : register.get? getKey = some (.list items))
    (hreplace : replace ≠ .global) (name setKey : String) (rounds : Nat) :
    SameCause ((x.listMode getKey setKey replace).run rounds e register)
      ((x.loopMode name getKey setKey).run rounds e register) := by
  have hloops := sameCause_loops x.name (sameCause_element (e := e) hx rounds name) items
  have hitems : listAt register getKey = .ok items := listAt_eq_ok.mpr hlist
  refine (sameCause_listMode hlist hreplace setKey rounds).symm.trans ?_
  change SameCause _ (Process.ofExcept (listAt register getKey) >>= _)
  rw [hitems]
  refine AlikeUpTo.trans ?_ (AlikeUpTo.of_ending fun w => (Process.ending_bind_of_ok rfl).symm)
  refine AlikeUpTo.trans ?_ ((AlikeUpTo.bind_pure_bind _ _ _).symm.trans
    (hloops.bind fun _ => AlikeUpTo.refl _))
  exact AlikeUpTo.refl _

/-! ## The element that fails -/

/-- What the list mode does with one element. -/
def executeElement (name : String) (x : Executable) (e : Evaluator) (item : Value) : Act Value := do
  let record ← Effect.ofExcept (item.expectRecord.mapError (.executable name))
  let output ← x.execute record e
  pure (.mapping (record.merge output))

theorem executeEach_cons (name : String) (item : Value) (rest : List Value) :
    executeEach name x e (item :: rest) = (do
      let result ← executeElement name x e item
      let results ← executeEach name x e rest
      pure (result :: results)) := by
  rw [executeEach, executeElement]
  simp only [Effect.bind_assoc, Effect.pure_bind]

/-- A list of which not all is done has an element at which it ends, whatever comes after. -/
theorem failing_element {name : String} {items : List Value} {w w' : World}
    {error : ExecutionError} {events : List Event}
    (h : executeEach name x e items w = ⟨.error error, events, w'⟩) :
    ∃ front item back, items = front ++ item :: back ∧
      (∃ results, (executeEach name x e front w).result = .ok results) ∧
      ∀ back', executeEach name x e (front ++ item :: back') w = ⟨.error error, events, w'⟩ := by
  induction items generalizing w events with
  | nil => cases h
  | cons item rest ih =>
    rw [executeEach_cons] at h
    cases hitem : executeElement name x e item w with
    | mk result first mid =>
      cases result with
      | error error' =>
        rw [Effect.bind_of_error hitem] at h
        cases h
        refine ⟨[], item, rest, rfl, ⟨[], rfl⟩, fun back' => ?_⟩
        rw [List.nil_append, executeEach_cons, Effect.bind_of_error hitem]
      | ok value =>
        rw [Effect.bind_of_ok hitem] at h
        cases hrest : executeEach name x e rest mid with
        | mk result second last =>
          cases result with
          | ok results =>
            rw [Effect.bind_of_ok hrest] at h
            cases h
          | error error' =>
            rw [Effect.bind_of_error hrest] at h
            cases h
            obtain ⟨front, failing, back, rfl, ⟨results, hfront⟩, hfails⟩ := ih hrest
            refine ⟨item :: front, failing, back, rfl, ⟨value :: results, ?_⟩, ?_⟩
            · rw [executeEach_cons, Effect.bind_of_ok hitem,
                Effect.bind_of_ok (Run.eq_of_result hfront)]
              rfl
            · intro back'
              rw [List.cons_append, executeEach_cons, Effect.bind_of_ok hitem,
                Effect.bind_of_error (hfails back')]
              rfl

/-- A component that ends on every list as another one does, up to layers, fails where that
one fails. -/
theorem Component.FailsAt.of_sameCause {c c' : Component} {key : String} {w w' : World}
    {front : List Value} {item : Value} {cause : ExecutionError}
    (h : ∀ items rounds, SameCause (c.run rounds e (register.insert key (.list items)))
      (c'.run rounds e (register.insert key (.list items))))
    (hfails : c.FailsAt e register key w front item cause w') :
    c'.FailsAt e register key w front item cause w' where
  done := by
    obtain ⟨register', mid, hends⟩ := hfails.done
    exact ⟨register', mid, (AlikeUpTo.ends (h front) w mid).1 _ hends⟩
  fails back := by
    obtain ⟨error, hends, hcause⟩ := hfails.fails back
    obtain ⟨error', hends', hsame⟩ := (AlikeUpTo.ends (h _) w w').2 error hends
    exact ⟨error', hends', hsame ▸ hcause⟩

end

/-! ## The result -/

/-- An executable agrees with the loop over the elements, if it does not depend on the name of
its evaluator.  From every register with a list at the key, whatever its elements are, its list
mode and the loop both give the same register and leave the same world, or both fail at the
same element, for the same cause and in the same world. -/
theorem list_mode_agrees_with_forEach {x : Executable} (hx : x.IgnoresNames)
    {replace : Replacing} (hreplace : replace ≠ .global) (name setKey : String) {getKey : String}
    {register : Record} {items : List Value} (hlist : register.get? getKey = some (.list items))
    (e : Evaluator) (w : World) :
    (∃ register' w',
      (x.listMode getKey setKey replace).Ends e register w (.ok (.next register')) w' ∧
      (x.loopMode name getKey setKey).Ends e register w (.ok (.next register')) w') ∨
    ∃ error error' w',
      (x.listMode getKey setKey replace).Ends e register w (.error error) w' ∧
      (x.loopMode name getKey setKey).Ends e register w (.error error') w' ∧
      error.rootCause = error'.rootCause ∧
      ∃ front item back, items = front ++ item :: back ∧
        (x.listMode getKey setKey replace).FailsAt e register getKey w front item
          error.rootCause w' ∧
        (x.loopMode name getKey setKey).FailsAt e register getKey w front item
          error.rootCause w' := by
  have hmodes {register : Record} {items : List Value}
      (hlist : register.get? getKey = some (.list items)) (rounds : Nat) :=
    sameCause_modes (e := e) hx hlist hreplace name setKey rounds
  have hfound (items : List Value) :
      (register.insert getKey (.list items)).get? getKey = some (.list items) := by
    rw [Ascending.get?_insert, if_pos rfl]
  obtain ⟨hok, herror⟩ := AlikeUpTo.ends (hmodes hlist) w (executeEach x.name x e items w).state
  cases hrun : executeEach x.name x e items w with
  | mk result events w' =>
    rw [hrun] at hok herror
    cases result with
    | ok results =>
      have hends := listMode_ends hlist hreplace hrun setKey
      exact .inl ⟨_, w', hends, hok _ hends⟩
    | error error =>
      have hends := listMode_ends hlist hreplace hrun setKey
      obtain ⟨error', hloop, hcause⟩ := herror error hends
      obtain ⟨front, item, back, hitems, ⟨results, hfront⟩, hfails⟩ := failing_element hrun
      have hmode : (x.listMode getKey setKey replace).FailsAt e register getKey w front item
          error.rootCause w' := by
        constructor
        · exact ⟨_, _, listMode_ends (hfound front) hreplace (Run.eq_of_result hfront) setKey⟩
        · intro back'
          exact ⟨error, listMode_ends (hfound _) hreplace (hfails back') setKey, rfl⟩
      exact .inr ⟨error, error', w', hends, hloop, hcause, front, item, back, hitems, hmode,
        hmode.of_sameCause fun items => hmodes (hfound items)⟩

/-- An executable that puts its data into memory. -/
def remember : Executable where
  name := "Remember"
  replace := .inplace
  input := Stock.anyMapping
  output := Stock.anyMapping
  invoke data e := do
    e.setMemory data none "last"
    pure ((∅ : Record).insert "seen" (.bool true))

theorem remember_ignoresNames : remember.IgnoresNames := by
  intro data e e' he
  have hinvoke : remember.invoke data e = remember.invoke data e' := by
    simp only [remember, Evaluator.setMemory, memory_eq_of_unnamed he]
  rw [hinvoke]
  exact EndAlike.refl _

/-- A mapping, an element that is none, and a mapping behind it. -/
def mixedList : List Value :=
  [.mapping ((∅ : Record).insert "name" (.string "first")), .null, .mapping ∅]

/-- A register with the list. -/
def mixedRegister : Record := (∅ : Record).insert "xs" (.list mixedList)

/-- A world whose memory 0 is empty. -/
def blankWorld : World := ⟨⟨[(0, .inProcess ∅)]⟩, Files.empty⟩

theorem mixedList_fails_at_one_element :
    mixedRegister.get? "xs" = some (.list mixedList) ∧
    ∃ error error' w' front item back,
      (remember.listMode "xs" "ys" .local).Ends (.make "Root" .off true 0) mixedRegister blankWorld
        (.error error) w' ∧
      (remember.loopMode "Each" "xs" "ys").Ends (.make "Root" .off true 0) mixedRegister blankWorld
        (.error error') w' ∧
      error.contextChain = ["Remember"] ∧ error'.rootCause = .invalidInput (.notMapping .null) ∧
      w'.memory 0 = .inProcess
        ((∅ : Record).insert "last" (.mapping ((∅ : Record).insert "name" (.string "first")))) ∧
      mixedList = front ++ item :: back ∧
      (remember.loopMode "Each" "xs" "ys").FailsAt (.make "Root" .off true 0) mixedRegister "xs"
        blankWorld front item (.invalidInput (.notMapping .null)) w' := by
  have hlist : mixedRegister.get? "xs" = some (.list mixedList) := rfl
  have hfails : (remember.listMode "xs" "ys" .local).Ends (.make "Root" .off true 0) mixedRegister
      blankWorld (.error (.executable "Remember" (.invalidInput (.notMapping .null)))) _ :=
    ⟨_, 0, rfl⟩
  have hlocal : Replacing.local ≠ .global := by decide
  obtain ⟨_, _, hok, _⟩ | ⟨error, error', w', hmode, hloop, hcause, front, item, back, hitems, _,
      hlast⟩ :=
    list_mode_agrees_with_forEach remember_ignoresNames hlocal "Each" "ys" hlist
      (.make "Root" .off true 0) blankWorld
  · cases (hok.unique hfails).1
  · obtain ⟨herror, rfl⟩ := hmode.unique hfails
    cases herror
    exact ⟨hlist, _, error', _, front, item, back, hmode, hloop, rfl, hcause.symm, rfl, hitems,
      hlast⟩

end Pipeline
