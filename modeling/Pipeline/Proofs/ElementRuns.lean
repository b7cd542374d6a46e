import Mathlib.Data.List.Forall2
import Pipeline.Proofs.Contents
import Pipeline.Proofs.Recording

/-!
# Running a body on each element

A body runs on the elements of a list from left to right, each time on a register that is the
element alone, and in the world that the run before it left.  `Completes` is a chain of runs
that all give a register, and `RunsThrough` says how such a chain ends: with the list, with an
element on which the body does not give one, or with an element that is no mapping.  A recorded
run makes just those runs of the body (`recordedForEach_eq_some`).

What a body gives that accesses no memory depends on the element alone
(`Component.respects_anywhere`).  A list of such elements may then stand in any order.
-/

namespace Pipeline

/-! ## The runs of the body -/

/-- A run of the body on an element. -/
structure ElementRun where
  element : Record
  before : World
  run : Run World ExecutionError Outcome

/-- How the runs on the elements of a list end. -/
inductive EachEnd
  /-- The body gave a register for every element. -/
  | completed (results : List Record)
  /-- The body gave the signal that ends a loop. -/
  | exited
  | failed (error : ExecutionError)

/-- What the construct gives then: the results at the key, the register as it was, or the
error. -/
def EachEnd.result (register : Record) (setKey : String) :
    EachEnd → Except ExecutionError Outcome
  | .completed results => .ok (.next (register.insert setKey (.list (results.map .mapping))))
  | .exited => .ok (.exitLoop register)
  | .failed error => .error error

/-- What the runs on the elements give the construct. -/
def EachEnd.answer : EachEnd → Except ExecutionError (Option (List Value))
  | .completed results => .ok (some (results.map .mapping))
  | .exited => .ok none
  | .failed error => .error error

/-- The end with one more result before the others. -/
def EachEnd.cons (result : Record) : EachEnd → EachEnd
  | .completed results => .completed (result :: results)
  | .exited => .exited
  | .failed error => .failed error

theorem EachEnd.answer_cons (result : Record) (finish : EachEnd) :
    (finish.cons result).answer = finish.answer.map (Option.map (.mapping result :: ·)) := by
  cases finish <;> rfl

/-- The events of some runs. -/
def ElementRun.trace (runs : List ElementRun) : List Event := runs.flatMap (·.run.events)

/-- A run of the body on an element, which is put on record. -/
def recordedElement (rounds : Nat) (body : Component) (e : Evaluator) (element : Record) :
    Process (World × List ElementRun) ExecutionError Outcome :=
  (body.evaluate rounds e element).noting fun w z runs => runs ++ [⟨element, w, z⟩]

/-- A body on each element of the list at a key, with a record of its runs beside the world. -/
def recordedForEach (rounds : Nat) (name : String) (body : Component) (getKey setKey : String)
    (e : Evaluator) (register : Record) :
    Process (World × List ElementRun) ExecutionError Outcome := do
  let items ← Process.ofExcept (listAt register getKey)
  let answer ← Process.each (recordedElement rounds body (e.child name)) items
  pure (match answer with
    | none => .exitLoop register
    | some results => .next (register.insert setKey (.list results)))

theorem recordedForEach_forgets (rounds : Nat) (name : String) (body : Component)
    (getKey setKey : String) (e : Evaluator) (register : Record) :
    Process.Forgets (recordedForEach rounds name body getKey setKey e register)
      ((Component.forEach name body getKey setKey).run rounds e register) := by
  refine Process.Forgets.bind (.ofExcept _) fun items => ?_
  rw [runEach_eq_each]
  refine Process.Forgets.bind (.each (fun _ => .noting _ _) items) fun results => ?_
  cases results with
  | none => exact .pure _
  | some results => exact .pure _

/-! ## Chains of runs -/

section

variable (rounds : Nat) (body : Component) (e : Evaluator)

/-- The body gives a register for each element of the list: the runs, what they gave, and the
world after the last. -/
inductive Completes : List Value → World → List ElementRun → List Record → World → Prop
  | nil {w : World} : Completes [] w [] [] w
  | cons {element result : Record} {rest : List Value} {w u v : World} {events : List Event}
      {runs : List ElementRun} {results : List Record} :
      body.evaluate rounds e element w = some ⟨.ok (.next result), events, u⟩ →
        Completes rest u runs results v →
        Completes (.mapping element :: rest) w
          (⟨element, w, ⟨.ok (.next result), events, u⟩⟩ :: runs) (result :: results) v

/-- The body runs on the elements of a list as far as it comes. -/
inductive RunsThrough : List Value → World → List ElementRun → EachEnd → World → Prop
  | all {items : List Value} {w v : World} {runs : List ElementRun} {results : List Record} :
      Completes rounds body e items w runs results v →
        RunsThrough items w runs (.completed results) v
  | notMapping {first rest : List Value} {item : Value} {w v : World} {runs : List ElementRun}
      {results : List Record} {error : ExecutionError} :
      Completes rounds body e first w runs results v →
        item.expectRecord = .error error →
        RunsThrough (first ++ item :: rest) w runs (.failed error) v
  | failed {first rest : List Value} {element : Record} {w u v : World} {runs : List ElementRun}
      {results : List Record} {error : ExecutionError} {events : List Event} :
      Completes rounds body e first w runs results u →
        body.evaluate rounds e element u = some ⟨.error error, events, v⟩ →
        RunsThrough (first ++ .mapping element :: rest) w
          (runs ++ [⟨element, u, ⟨.error error, events, v⟩⟩]) (.failed error) v
  | exited {first rest : List Value} {element back : Record} {w u v : World}
      {runs : List ElementRun} {results : List Record} {events : List Event} :
      Completes rounds body e first w runs results u →
        body.evaluate rounds e element u = some ⟨.ok (.exitLoop back), events, v⟩ →
        RunsThrough (first ++ .mapping element :: rest) w
          (runs ++ [⟨element, u, ⟨.ok (.exitLoop back), events, v⟩⟩]) .exited v

end

section

variable {rounds : Nat} {body : Component} {e : Evaluator} {element result : Record}
variable {items first rest : List Value} {w u v : World} {events : List Event}
variable {runs earlier : List ElementRun} {results : List Record}

theorem Completes.length_eq (h : Completes rounds body e items w runs results v) :
    results.length = items.length := by
  induction h with
  | nil => rfl
  | cons _ _ ih => rw [List.length_cons, List.length_cons, ih]

/-- After some elements that are run in full, the others are run. -/
theorem Completes.each_append (h : Completes rounds body e first w runs results u)
    (rest : List Value) (earlier : List ElementRun) :
    Process.each (recordedElement rounds body e) (first ++ rest) (w, earlier) =
      (Process.each (recordedElement rounds body e) rest (u, earlier ++ runs)).map fun z =>
        ⟨z.result.map (Option.map (results.map .mapping ++ ·)),
          ElementRun.trace runs ++ z.events, z.state⟩ := by
  induction h generalizing earlier with
  | nil =>
    rw [List.nil_append, List.append_nil]
    rcases Process.each (recordedElement rounds body e) rest _ with
      _ | ⟨_ | _ | results, events, s⟩ <;> rfl
  | @cons element result rest' w u v events runs results hrun _ ih =>
    rw [List.cons_append, Process.each_of_next (Process.noting_of_some hrun earlier), ih,
      Option.map_map, List.append_assoc, List.singleton_append]
    refine congrArg (Option.map · _) (funext fun z => ?_)
    obtain ⟨_ | _ | later, events', s⟩ := z <;> simp [ElementRun.trace, Except.map]

/-- Runs through the rest of a list are, after a run that gives a register, runs through the
list. -/
theorem RunsThrough.cons {finish : EachEnd}
    (hfirst : body.evaluate rounds e element w = some ⟨.ok (.next result), events, u⟩)
    (h : RunsThrough rounds body e items u runs finish v) :
    RunsThrough rounds body e (.mapping element :: items) w
      (⟨element, w, ⟨.ok (.next result), events, u⟩⟩ :: runs) (finish.cons result) v := by
  cases h with
  | all h => exact .all (.cons hfirst h)
  | notMapping h hitem => exact .notMapping (.cons hfirst h) hitem
  | failed h hrun => exact .failed (.cons hfirst h) hrun
  | exited h hrun => exact .exited (.cons hfirst h) hrun

/-- Every run on the elements of a list runs through it. -/
theorem runsThrough_of_each {z : Run (World × List ElementRun) ExecutionError (Option (List Value))}
    (h : Process.each (recordedElement rounds body e) items (w, earlier) = some z) :
    ∃ runs finish v, RunsThrough rounds body e items w runs finish v ∧
      z = ⟨finish.answer, ElementRun.trace runs, (v, earlier ++ runs)⟩ := by
  induction items generalizing w earlier z with
  | nil =>
    cases h
    exact ⟨[], .completed [], w, .all .nil, by rw [List.append_nil]; rfl⟩
  | cons item rest ih =>
    cases hitem : item.expectRecord with
    | error error =>
      rw [Process.each_of_notMapping hitem] at h
      cases h
      exact ⟨[], .failed error, w, .notMapping .nil hitem,
        by rw [List.append_nil]; rfl⟩
    | ok element =>
      cases Value.eq_of_expectRecord hitem
      rcases hrun : body.evaluate rounds e element w with _ | ⟨error | (result | back), events, u⟩
      · have hnone : recordedElement rounds body e element (w, earlier) = none := by
          rw [recordedElement, Process.noting, hrun]
          rfl
        rw [Process.each_of_none hnone] at h
        cases h
      · rw [Process.each_of_error (Process.noting_of_some hrun earlier)] at h
        cases h
        exact ⟨_, _, u, .failed .nil hrun, by simp [EachEnd.answer, ElementRun.trace]⟩
      · rw [Process.each_of_next (Process.noting_of_some hrun earlier)] at h
        obtain ⟨z, hrest, rfl⟩ := Option.map_eq_some_iff.mp h
        obtain ⟨runs, finish, v, hthrough, rfl⟩ := ih hrest
        refine ⟨_, _, v, .cons hrun hthrough, ?_⟩
        rw [EachEnd.answer_cons, List.append_assoc]
        rfl
      · rw [Process.each_of_exitLoop (Process.noting_of_some hrun earlier)] at h
        cases h
        exact ⟨_, _, u, .exited .nil hrun, by simp [EachEnd.answer, ElementRun.trace]⟩

/-- The record holds the runs. -/
theorem RunsThrough.each {finish : EachEnd} (h : RunsThrough rounds body e items w runs finish v)
    (earlier : List ElementRun) :
    Process.each (recordedElement rounds body e) items (w, earlier) =
      some ⟨finish.answer, ElementRun.trace runs, (v, earlier ++ runs)⟩ := by
  cases h with
  | all h =>
    have hall := h.each_append [] earlier
    rw [List.append_nil] at hall
    rw [hall]
    simp [Process.each, Process.pure_apply, EachEnd.answer, Except.map]
  | notMapping h hitem =>
    rw [h.each_append, Process.each_of_notMapping hitem]
    simp [EachEnd.answer, Except.map]
  | failed h hrun =>
    rw [h.each_append, Process.each_of_error (Process.noting_of_some hrun _)]
    simp [EachEnd.answer, Except.map, ElementRun.trace]
  | exited h hrun =>
    rw [h.each_append, Process.each_of_exitLoop (Process.noting_of_some hrun _)]
    simp [EachEnd.answer, Except.map, ElementRun.trace]

end

section

variable {rounds : Nat} {name getKey setKey : String} {body : Component} {e : Evaluator}
variable {register : Record} {items : List Value} {w : World}

/-- The construct writes down what the runs on the elements gave it. -/
theorem recordedForEach_apply (hitems : register.get? getKey = some (.list items))
    (s : World × List ElementRun) :
    recordedForEach rounds name body getKey setKey e register s =
      (Process.each (recordedElement rounds body (e.child name)) items s).map fun z =>
        ⟨z.result.map fun
          | none => .exitLoop register
          | some results => .next (register.insert setKey (.list results)), z.events, z.state⟩ := by
  rw [recordedForEach, Process.ofExcept_bind, listAt_eq_ok.mpr hitems]
  exact Process.bind_pure_apply _ _ s

/-- A recorded run of the construct runs through the list, and its record holds those runs. -/
theorem recordedForEach_eq_some (hitems : register.get? getKey = some (.list items))
    {z : Run (World × List ElementRun) ExecutionError Outcome} :
    recordedForEach rounds name body getKey setKey e register (w, []) = some z ↔
      ∃ runs finish v, RunsThrough rounds body (e.child name) items w runs finish v ∧
        z = ⟨finish.result register setKey, ElementRun.trace runs, (v, runs)⟩ := by
  have hresult (finish : EachEnd) : finish.result register setKey = finish.answer.map fun
      | none => .exitLoop register
      | some results => .next (register.insert setKey (.list results)) := by
    cases finish <;> rfl
  rw [recordedForEach_apply hitems]
  constructor
  · intro h
    obtain ⟨_, heach, rfl⟩ := Option.map_eq_some_iff.mp h
    obtain ⟨runs, finish, v, hthrough, rfl⟩ := runsThrough_of_each heach
    exact ⟨runs, finish, v, hthrough, by rw [hresult]; rfl⟩
  · rintro ⟨runs, finish, v, hthrough, rfl⟩
    rw [hthrough.each, hresult]
    rfl

/-- So does a run without a record. -/
theorem run_forEach_eq_some (hitems : register.get? getKey = some (.list items))
    {z : Run World ExecutionError Outcome} :
    (Component.forEach name body getKey setKey).run rounds e register w = some z ↔
      ∃ runs finish v, RunsThrough rounds body (e.child name) items w runs finish v ∧
        z = ⟨finish.result register setKey, ElementRun.trace runs, v⟩ := by
  rw [← recordedForEach_forgets rounds name body getKey setKey e register w []]
  constructor
  · intro h
    obtain ⟨_, hrecorded, rfl⟩ := Option.map_eq_some_iff.mp h
    obtain ⟨runs, finish, v, hthrough, rfl⟩ := (recordedForEach_eq_some hitems).mp hrecorded
    exact ⟨runs, finish, v, hthrough, rfl⟩
  · rintro ⟨runs, finish, v, hthrough, rfl⟩
    rw [(recordedForEach_eq_some hitems).mpr ⟨runs, finish, v, hthrough, rfl⟩]
    rfl

end

/-! ## Bodies that access no memory -/

/-- Any two worlds are related. -/
def AnyWorlds (_ _ : World) : Prop := True

theorem AnyWorlds.intro (w w' : World) : AnyWorlds w w' := trivial

/-- A unit that accesses no memory: it is no memory step, and an executable of one's own ends in
the same way in any two worlds. -/
def Component.AccessesNoMemory : Component → Prop
  | .executable _ _ x => ∀ data e, (x.invoke data e).Respects AnyWorlds
  | .setMemory .. | .getMemory .. | .deleteMemory .. => False
  | _ => True

/-- The same of a test of one's own; a condition copies no entries of memory. -/
def Predicate.AccessesNoMemory : Predicate → Prop
  | .test check => ∀ register e, (check register e).Respects AnyWorlds
  | .condition _ _ _ (some _) => False
  | _ => True

theorem Component.AccessesNoMemory.workKeeps {c : Component} (hc : c.IsLeaf)
    (h : c.AccessesNoMemory) (e : Evaluator) :
    c.WorkKeeps (fun {_} x => x.Respects AnyWorlds) e := by
  cases c with
  | executable => exact fun data => h data e
  | setMemory | getMemory | deleteMemory => cases h
  | action | exit | log => trivial
  | schema | loop | forEach | filter | switch | evaluator => cases hc

/-- A tree whose units access no memory ends in the same way in any two worlds. -/
theorem Component.respects_anywhere {c : Component}
    (h : c.Every Component.AccessesNoMemory Predicate.AccessesNoMemory) (rounds : Nat)
    (e : Evaluator) (register : Record) :
    (c.run rounds e register).Respects AnyWorlds :=
  (Process.Respects.simulation (R := Predicate.AccessesNoMemory) rounds
    Component.AccessesNoMemory.workKeeps (fun h => h) (fun h => nomatch h)).run c h rfl register

section

variable {rounds : Nat} {body : Component} {e : Evaluator} {items : List Value}
variable {results : List Record} {runs : List ElementRun} {w v : World}

/-- Evaluated alone on the element, in any world, the body gives the result. -/
def Component.GivesAlone (rounds : Nat) (body : Component) (e : Evaluator) (item : Value)
    (result : Record) : Prop :=
  ∃ element, item = .mapping element ∧ ∀ u, ∃ events v,
    body.evaluate rounds e element u = some ⟨.ok (.next result), events, v⟩

/-- What a body without memory gives in a chain of runs, it gives alone. -/
theorem Completes.givesAlone
    (hbody : body.Every Component.AccessesNoMemory Predicate.AccessesNoMemory)
    (h : Completes rounds body e items w runs results v) :
    List.Forall₂ (body.GivesAlone rounds e) items results := by
  induction h with
  | nil => exact .nil
  | @cons element result rest w _ _ _ _ _ hrun _ ih =>
    refine .cons ⟨element, rfl, fun u => ?_⟩ ih
    have hrespects := (Component.respects_anywhere hbody rounds e element).within e
    obtain ⟨v, hrun', _⟩ := hrespects.of_some (AnyWorlds.intro w u) hrun
    exact ⟨_, v, hrun'⟩

/-- What a body gives alone, it gives in a chain of runs. -/
theorem completes_of_givesAlone (h : List.Forall₂ (body.GivesAlone rounds e) items results)
    (w : World) : ∃ runs v, Completes rounds body e items w runs results v := by
  induction h generalizing w with
  | nil => exact ⟨[], w, .nil⟩
  | cons hitem _ ih =>
    obtain ⟨element, rfl, halone⟩ := hitem
    obtain ⟨events, u, hrun⟩ := halone w
    obtain ⟨runs, v, hrest⟩ := ih u
    exact ⟨_, v, .cons hrun hrest⟩

/-- Elements in another order give the same results in that order. -/
theorem forall₂_of_perm {α β : Type} {R : α → β → Prop} {xs ys : List α} (hperm : ys.Perm xs)
    {zs : List β} (h : List.Forall₂ R xs zs) :
    ∃ zs', List.Forall₂ R ys zs' ∧ (ys.zip zs').Perm (xs.zip zs) := by
  induction hperm generalizing zs with
  | nil =>
    cases h
    exact ⟨[], .nil, .nil⟩
  | cons x _ ih =>
    cases h with
    | cons hx h =>
      obtain ⟨zs', h', hzip⟩ := ih h
      exact ⟨_ :: zs', .cons hx h', hzip.cons _⟩
  | swap x y =>
    obtain _ | ⟨hx, _ | ⟨hy, h⟩⟩ := h
    exact ⟨_, .cons hy (.cons hx h), .swap _ _ _⟩
  | trans _ _ ih ih' =>
    obtain ⟨ws, hws, hzip⟩ := ih' h
    obtain ⟨zs', h', hzip'⟩ := ih hws
    exact ⟨zs', h', hzip'.trans hzip⟩

end

/-! ## The result -/

/-- A body on each element of a list is a map in order.  It runs on the elements from left to
right, and as far as the runs come is what the call gives: with a register for each element, the
register with their list at one key and nothing else changed; with an element that is no mapping
or a run that fails, that error; with the signal that ends a loop, the register as it was.  A
recorded call holds those runs and no others.

What a body gives that accesses no memory, it gives on each element alone, and a list of the
same elements in another order has the same results in that order. -/
theorem forEach_maps_in_order (rounds : Nat) (name : String) (body : Component)
    (getKey setKey : String) (e : Evaluator) (register : Record) (items : List Value) (w : World)
    (hitems : register.get? getKey = some (.list items)) :
    let call := (Component.forEach name body getKey setKey).run rounds e
    let recorded := recordedForEach rounds name body getKey setKey e
    let runsThrough := RunsThrough rounds body (e.child name) items w
    (∀ z, call register w = some z ↔ ∃ runs finish v, runsThrough runs finish v ∧
      z = ⟨finish.result register setKey, ElementRun.trace runs, v⟩) ∧
    Process.Forgets (recorded register) (call register) ∧
    (∀ runs finish v, runsThrough runs finish v → recorded register (w, []) =
      some ⟨finish.result register setKey, ElementRun.trace runs, (v, runs)⟩) ∧
    ∀ runs results v, runsThrough runs (.completed results) v →
      results.length = items.length ∧
      (body.Every Component.AccessesNoMemory Predicate.AccessesNoMemory →
        List.Forall₂ (body.GivesAlone rounds (e.child name)) items results ∧
        ∀ (items' : List Value) (register' : Record) (u : World), items'.Perm items →
          register'.get? getKey = some (.list items') →
          ∃ results' events v',
            call register' u = some ⟨.ok (.next
              (register'.insert setKey (.list (results'.map .mapping)))), events, v'⟩ ∧
            List.Forall₂ (body.GivesAlone rounds (e.child name)) items' results' ∧
            (items'.zip results').Perm (items.zip results)) := by
  intro call recorded runsThrough
  refine ⟨fun z => run_forEach_eq_some hitems, recordedForEach_forgets _ _ _ _ _ _ _, ?_, ?_⟩
  · intro runs finish v hthrough
    exact (recordedForEach_eq_some hitems).mpr ⟨runs, finish, v, hthrough, rfl⟩
  · rintro runs results v (hall | _)
    refine ⟨hall.length_eq, fun hbody => ?_⟩
    have halone := hall.givesAlone hbody
    refine ⟨halone, fun items' register' u hperm hitems' => ?_⟩
    obtain ⟨results', halone', hzip⟩ := forall₂_of_perm hperm halone
    obtain ⟨runs', v', hall'⟩ := completes_of_givesAlone halone' u
    exact ⟨results', _, v', (run_forEach_eq_some hitems').mpr ⟨runs', _, v', .all hall', rfl⟩,
      halone', hzip⟩

/-- A mapping with a count. -/
def counted (n : Int) : Record := Stock.record [("f", .int n)]

/-- Counting on each of two elements, in either order. -/
theorem counting_maps_in_order :
    let body := Component.ofAction (Stock.add "f" 1 true)
    let e := Evaluator.make "Root" .off true 0
    let listed := fun items => Stock.record [("fs", .list items)]
    let call := fun items =>
      (Component.forEach "Each" body "fs" "results").run 1 e (listed items) World.empty
    let items := [.mapping (counted 1), .mapping (counted 2)]
    let results := [counted 2, counted 3]
    call items = some ⟨.ok (.next ((listed items).insert "results" (.list (results.map .mapping)))),
      [], World.empty⟩ ∧
    ∃ results' events v,
      call items.reverse = some ⟨.ok (.next ((listed items.reverse).insert "results"
        (.list (results'.map .mapping)))), events, v⟩ ∧
      (items.reverse.zip results').Perm (items.zip results) := by
  intro body e listed call items results
  obtain ⟨hcall, _, _, hpure⟩ := forEach_maps_in_order 1 "Each" body "fs" "results" e
    (listed items) items World.empty rfl
  have hone : body.evaluate 1 (e.child "Each") (counted 1) World.empty =
    some ⟨.ok (.next (counted 2)), [], World.empty⟩ := rfl
  have htwo : body.evaluate 1 (e.child "Each") (counted 2) World.empty =
    some ⟨.ok (.next (counted 3)), [], World.empty⟩ := rfl
  have hruns := RunsThrough.all (.cons hone (.cons htwo .nil))
  obtain ⟨_, hpure⟩ := hpure _ results _ hruns
  obtain ⟨_, hpermuted⟩ := hpure trivial
  obtain ⟨results', events, v, hcall', _, hzip⟩ := hpermuted items.reverse
    (listed items.reverse) World.empty (List.reverse_perm items) rfl
  exact ⟨(hcall _).mpr ⟨_, _, _, hruns, rfl⟩, results', events, v, hcall', hzip⟩

end Pipeline
