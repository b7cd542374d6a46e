import Pipeline.Proofs.Contents
import Pipeline.Proofs.FailedPop
import Pipeline.Proofs.Recording

/-!
# Failures that a schema contains

Without fast exit a schema skips the steps that fail.  A skipped step hands on the register
that it was called with, so that it leaves a trace in the world only.  Where it leaves none,
the schema does what it would do without that step (`failures_are_contained`).

`recordedSteps` is the run of a schema with a record of its calls, and `Skips` says in one rule
for each way a step ends which calls those are.  What the result says of the calls is shown
by induction on that relation.
-/

namespace Pipeline

/-! ## The calls of a schema -/

/-- A call of a step: what it was called with, and how it ended. -/
structure StepCall where
  step : Component
  register : Record
  before : World
  run : Run World ExecutionError Outcome

namespace StepCall

/-- The register that a call gave, unless it failed. -/
def given? (call : StepCall) : Option Record :=
  match call.run.result with
  | .ok outcome => some outcome.register
  | .error _ => none

/-- The call failed. -/
def failed (call : StepCall) : Bool := call.given?.isNone

/-- The register that the last call gave that did not fail, or the one at the start. -/
def lastGiven (register : Record) (calls : List StepCall) : Record :=
  (calls.filterMap given?).getLastD register

theorem lastGiven_cons (register : Record) (call : StepCall) (calls : List StepCall) :
    lastGiven register (call :: calls) = lastGiven (call.given?.getD register) calls := by
  rw [lastGiven, List.filterMap_cons]
  cases call.given? with
  | none => rfl
  | some given => exact List.getLastD_cons ..

/-- The steps without those whose calls failed. -/
def withoutFailed : List Component → List StepCall → List Component
  | [], _ => []
  | step :: rest, [] => step :: rest
  | step :: rest, call :: calls =>
    if call.failed then withoutFailed rest calls else step :: withoutFailed rest calls

end StepCall

/-- A call of a step, which is put on record. -/
def recordedCall (rounds : Nat) (e : Evaluator) (step : Component) (register : Record) :
    Process (World × List StepCall) ExecutionError Outcome :=
  (step.run rounds e register).noting fun w z calls => calls ++ [⟨step, register, w, z⟩]

theorem recordedCall_of_some {rounds : Nat} {e : Evaluator} {step : Component} {register : Record}
    {w w' : World} {result : Except ExecutionError Outcome} {events : List Event}
    (h : step.run rounds e register w = some ⟨result, events, w'⟩) (earlier : List StepCall) :
    recordedCall rounds e step register (w, earlier) =
      some ⟨result, events, (w', earlier ++ [⟨step, register, w, ⟨result, events, w'⟩⟩])⟩ :=
  Process.noting_of_some h earlier

/-- The steps of a schema, with a record of their calls beside the world. -/
def recordedSteps (rounds : Nat) (name : String) (steps : List Component) (e : Evaluator) :
    (index : Nat) → Record → Process (World × List StepCall) ExecutionError Outcome :=
  Process.steps (recordedCall rounds e) name e steps

theorem recordedSteps_forgets (rounds : Nat) (name : String) (steps : List Component)
    (e : Evaluator) (index : Nat) (register : Record) :
    Process.Forgets (recordedSteps rounds name steps e index register)
      (runSteps rounds name steps e index register) := by
  rw [runSteps_eq_steps]
  exact .steps (fun _ _ => .noting _ _) name e steps index register

/-- Steps run one after another, and those that fail are skipped: the calls, the outcome and the
world at the end. -/
inductive Skips (rounds : Nat) (e : Evaluator) :
    List Component → Record → World → List StepCall → Outcome → World → Prop
  | done {register : Record} {w : World} : Skips rounds e [] register w [] (.next register) w
  | completed {step : Component} {rest : List Component} {register r : Record} {w u v : World}
      {events : List Event} {calls : List StepCall} {outcome : Outcome} :
      step.run rounds e register w = some ⟨.ok (.next r), events, u⟩ →
        Skips rounds e rest r u calls outcome v →
        Skips rounds e (step :: rest) register w
          (⟨step, register, w, ⟨.ok (.next r), events, u⟩⟩ :: calls) outcome v
  | exited {step : Component} {rest : List Component} {register r : Record} {w v : World}
      {events : List Event} :
      step.run rounds e register w = some ⟨.ok (.exitLoop r), events, v⟩ →
        Skips rounds e (step :: rest) register w
          [⟨step, register, w, ⟨.ok (.exitLoop r), events, v⟩⟩] (.exitLoop r) v
  | skipped {step : Component} {rest : List Component} {register : Record} {w u v : World}
      {error : ExecutionError} {events : List Event} {calls : List StepCall} {outcome : Outcome} :
      step.run rounds e register w = some ⟨.error error, events, u⟩ →
        Skips rounds e rest register u calls outcome v →
        Skips rounds e (step :: rest) register w
          (⟨step, register, w, ⟨.error error, events, u⟩⟩ :: calls) outcome v

section

variable {rounds : Nat} {e : Evaluator} {steps : List Component} {register r : Record}
variable {w v : World} {calls : List StepCall} {outcome : Outcome}

/-- Without fast exit every run of steps is of that kind. -/
theorem skips_of_runSteps (hpolicy : e.fastExit = false) {name : String} {index : Nat}
    {z : Run World ExecutionError Outcome}
    (h : runSteps rounds name steps e index register w = some z) :
    ∃ calls outcome, z.result = .ok outcome ∧
      Skips rounds e steps register w calls outcome z.state := by
  induction steps generalizing index register w z with
  | nil =>
    cases h
    exact ⟨[], .next register, rfl, .done⟩
  | cons step rest ih =>
    rw [runSteps_cons] at h
    cases afterStep_eq_some.mp h with
    | completed hstep hnext =>
      obtain ⟨calls, outcome, hresult, hrest⟩ := ih hnext
      exact ⟨_, outcome, hresult, .completed hstep hrest⟩
    | exited hstep => exact ⟨_, _, rfl, .exited hstep⟩
    | failed _ hfast =>
      rw [hpolicy] at hfast
      cases hfast
    | skipped hstep _ hnext =>
      obtain ⟨calls, outcome, hresult, hrest⟩ := ih hnext
      exact ⟨_, outcome, hresult, .skipped hstep hrest⟩

namespace Skips

/-- The record holds the calls. -/
theorem recorded (hpolicy : e.fastExit = false)
    (h : Skips rounds e steps register w calls outcome v) (name : String) (index : Nat)
    (earlier : List StepCall) :
    ∃ events, recordedSteps rounds name steps e index register (w, earlier) =
      some ⟨.ok outcome, events, (v, earlier ++ calls)⟩ := by
  rw [recordedSteps]
  induction h generalizing index earlier with
  | done => exact ⟨[], by rw [List.append_nil]; rfl⟩
  | completed hstep _ ih =>
    obtain ⟨later, hrest⟩ := ih (index + 1) (earlier ++ [_])
    rw [List.append_assoc, List.singleton_append] at hrest
    rw [Process.steps_of_next (recordedCall_of_some hstep earlier), hrest]
    exact ⟨_, rfl⟩
  | exited hstep =>
    rw [Process.steps_of_exitLoop (recordedCall_of_some hstep earlier)]
    exact ⟨_, rfl⟩
  | skipped hstep _ ih =>
    obtain ⟨later, hrest⟩ := ih (index + 1) (earlier ++ [_])
    rw [List.append_assoc, List.singleton_append] at hrest
    rw [Process.steps_of_error hpolicy (recordedCall_of_some hstep earlier), hrest]
    exact ⟨_, rfl⟩

/-- So the steps give the outcome and leave the world. -/
theorem runSteps (hpolicy : e.fastExit = false)
    (h : Skips rounds e steps register w calls outcome v) (name : String) (index : Nat) :
    ∃ events, Pipeline.runSteps rounds name steps e index register w =
      some ⟨.ok outcome, events, v⟩ := by
  obtain ⟨events, hrecorded⟩ := h.recorded hpolicy name index []
  refine ⟨events, ?_⟩
  rw [← recordedSteps_forgets rounds name steps e index register w [], hrecorded]
  rfl

/-- The calls are those of the first steps, in order. -/
theorem calls_prefix (h : Skips rounds e steps register w calls outcome v) :
    calls.map StepCall.step <+: steps := by
  induction h with
  | done => exact List.prefix_refl _
  | exited => exact ⟨_, rfl⟩
  | completed _ _ ih | skipped _ _ ih => exact (List.prefix_cons_inj _).mpr ih

/-- All steps are called, unless one of them gives the signal that ends a loop. -/
theorem calls_eq_of_next (h : Skips rounds e steps register w calls (.next r) v) :
    calls.map StepCall.step = steps := by
  generalize hnext : Outcome.next r = outcome at h
  induction h with
  | done => rfl
  | exited => cases hnext
  | completed _ _ ih | skipped _ _ ih => exact congrArg (_ :: ·) (ih hnext)

/-- A call is a run of its step. -/
theorem run_of_mem (h : Skips rounds e steps register w calls outcome v) {call : StepCall}
    (hmem : call ∈ calls) :
    call.step.run rounds e call.register call.before = some call.run := by
  induction h with
  | done => cases hmem
  | exited hstep =>
    cases hmem with
    | head => exact hstep
    | tail _ hmem => cases hmem
  | completed hstep _ ih | skipped hstep _ ih =>
    cases hmem with
    | head => exact hstep
    | tail _ hmem => exact ih hmem

/-- A step gets what the last step before it gave that did not fail. -/
theorem register_eq (h : Skips rounds e steps register w calls outcome v)
    {before after : List StepCall} {call : StepCall} (hsplit : calls = before ++ call :: after) :
    call.register = StepCall.lastGiven register before := by
  induction h generalizing before with
  | done => cases before <;> cases hsplit
  | exited =>
    cases before with
    | nil =>
      cases hsplit
      rfl
    | cons first before => cases before <;> cases hsplit
  | completed _ _ ih | skipped _ _ ih =>
    cases before with
    | nil =>
      cases hsplit
      rfl
    | cons first before =>
      cases hsplit
      rw [ih rfl, StepCall.lastGiven_cons]
      rfl

/-- The steps whose calls did not fail run alike from a related world, when every failed call
left the world related to the one it found. -/
theorem withoutFailed {S : World → World → Prop} (hS : Equivalence S)
    (hsteps : ∀ step ∈ steps, ∀ r, (step.run rounds e r).Respects S)
    (h : Skips rounds e steps register w calls outcome v)
    (hfailed : ∀ call ∈ calls, call.failed = true → S call.before call.run.state) {w' : World}
    (hw : S w w') :
    ∃ calls' v', Skips rounds e (StepCall.withoutFailed steps calls) register w' calls' outcome v' ∧
      S v v' := by
  induction h generalizing w' with
  | done => exact ⟨[], w', .done, hw⟩
  | completed hstep _ ih =>
    obtain ⟨u', hstep', hu⟩ := (hsteps _ (.head _) _).of_some hw hstep
    obtain ⟨calls', v', hrest, hv⟩ := ih (fun step hmem => hsteps step (.tail _ hmem))
      (fun call hmem => hfailed call (.tail _ hmem)) hu
    exact ⟨_, v', .completed hstep' hrest, hv⟩
  | exited hstep =>
    obtain ⟨v', hstep', hv⟩ := (hsteps _ (.head _) _).of_some hw hstep
    exact ⟨_, v', .exited hstep', hv⟩
  | skipped hstep _ ih =>
    -- the failed step left what it found, so the rest may start where the schema stands
    have hleft := hfailed _ (.head _) rfl
    exact ih (fun step hmem => hsteps step (.tail _ hmem))
      (fun call hmem => hfailed call (.tail _ hmem)) (hS.trans (hS.symm hleft) hw)

end Skips

end

/-! ## Reads that fail -/

/-- Copying entries changes nothing. -/
theorem Memory.get_state (default : Record) (identifiers : List Identifier) (register : Record)
    (before : Store × Files) : (get default false identifiers register before).state = before := by
  induction identifiers generalizing register with
  | nil => rfl
  | cons identifier rest ih =>
    rw [get]
    cases hread : (lookup identifier.memoryKey default before).result with
    | error error =>
      obtain ⟨events, hlookup⟩ := lookup_of_result hread
      rw [Effect.bind_of_error hlookup]
    | ok value =>
      obtain ⟨events, hlookup⟩ := lookup_of_result hread
      rw [Effect.bind_of_ok hlookup]
      exact ih _

theorem World.same_withMemory (w : World) (id : MemoryId) :
    w.Same (w.withMemory id (w.memory id, w.files)) := by
  refine ⟨fun other => ?_, .refl w.files⟩
  rw [World.memory_withMemory]
  split
  · next hid => rw [hid]
  · rfl

/-- A step that copies entries leaves the contents as it found them, whether it fails or not. -/
theorem same_of_getMemory {rounds : Nat} {name : String} {identifiers : List Identifier}
    {default register : Record} {e : Evaluator} {w : World}
    {z : Run World ExecutionError Outcome}
    (h : (Component.getMemory name identifiers default .get).run rounds e register w = some z) :
    w.Same z.state := by
  have hstate := Memory.get_state default identifiers register (w.memory e.memory, w.files)
  cases hget : Memory.get default false identifiers register (w.memory e.memory, w.files) with
  | mk result events after =>
    rw [hget] at hstate
    cases (congrArg some (runGetMemory_of_get .get hget)).symm.trans h
    cases hstate
    exact w.same_withMemory e.memory

/-! ## The result -/

/-- Without fast exit a schema that halts does not fail.  It calls its steps in order, and each
gets the register that the last step before it gave that did not fail.

When every failed call left the world as it found it, the schema without the failed steps ends
in the same way.  For steps that see the contents of memory and files only, it is enough that
every failed call left the contents as it found them, and the contents are then the same in the
end. -/
theorem failures_are_contained {rounds : Nat} {name : String} {steps : List Component}
    {e : Evaluator} {register : Record} {w : World} {z : Run World ExecutionError Outcome}
    (hpolicy : e.fastExit = false)
    (hrun : (Component.schema name steps).run rounds e register w = some z) :
    ∃ calls outcome,
      recordedSteps rounds name steps e 0 register (w, []) =
        some ⟨z.result, z.events, (z.state, calls)⟩ ∧
      z.result = .ok outcome ∧
      calls.map StepCall.step <+: steps ∧
      (∀ r, outcome = .next r → calls.map StepCall.step = steps) ∧
      (∀ before call after, calls = before ++ call :: after →
        call.step.run rounds e call.register call.before = some call.run ∧
        call.register = StepCall.lastGiven register before) ∧
      ((∀ call ∈ calls, call.failed = true → call.run.state = call.before) →
        (Component.schema name (StepCall.withoutFailed steps calls)).Ends e register w
          (.ok outcome) z.state) ∧
      ((∀ step ∈ steps, step.Every Component.SeesContents Predicate.SeesContents) →
        (∀ call ∈ calls, call.failed = true → call.before.Same call.run.state) →
        ∃ v, (Component.schema name (StepCall.withoutFailed steps calls)).Ends e register w
          (.ok outcome) v ∧ z.state.Same v) := by
  obtain ⟨calls, outcome, hresult, hskips⟩ := skips_of_runSteps hpolicy hrun
  have hends {S : World → World → Prop} (hS : Equivalence S)
      (hsteps : ∀ step ∈ steps, ∀ r, (step.run rounds e r).Respects S)
      (hfailed : ∀ call ∈ calls, call.failed = true → S call.before call.run.state) :
      ∃ v, (Component.schema name (StepCall.withoutFailed steps calls)).Ends e register w
        (.ok outcome) v ∧ S z.state v := by
    obtain ⟨_, v, hkept, hv⟩ := hskips.withoutFailed hS hsteps hfailed (hS.refl w)
    obtain ⟨events, hkept⟩ := hkept.runSteps hpolicy name 0
    exact ⟨v, ⟨events, rounds, hkept⟩, hv⟩
  refine ⟨calls, outcome, ?_, hresult, hskips.calls_prefix, ?_, ?_, ?_, ?_⟩
  · obtain ⟨events, hrecorded⟩ := hskips.recorded hpolicy name 0 []
    have hforget := recordedSteps_forgets rounds name steps e 0 register w []
    rw [hrecorded] at hforget
    have hz : Run.forget ⟨.ok outcome, events, (z.state, calls)⟩ = z :=
      Option.some.inj (hforget.trans hrun)
    rw [hrecorded, hresult, ← congrArg Run.events hz]
    rfl
  · rintro r rfl
    exact hskips.calls_eq_of_next
  · rintro before call after hsplit
    refine ⟨hskips.run_of_mem ?_, hskips.register_eq hsplit⟩
    rw [hsplit]
    exact List.mem_append_right _ (.head _)
  · intro hfailed
    obtain ⟨v, hv, hsame⟩ := hends (S := Eq) ⟨fun _ => rfl, Eq.symm, Eq.trans⟩
      (fun _ _ _ => .eq _) fun call hmem hcall => (hfailed call hmem hcall).symm
    rw [hsame]
    exact hv
  · intro hcontents hfailed
    exact hends ⟨.refl, .symm, .trans⟩
      (fun step hmem r => Component.respects_same (hcontents step hmem) rounds e r) hfailed

/-- Reads a key that is not there. -/
def missingRead : Component := .getMemory "Read" [.same "nothing"] ∅ .get

/-- Counts its calls in memory. -/
def countedCall : Component := .executable "Tally" (.root "output" .inplace) Stock.tally

/-- Counts twice, with a read that fails before each. -/
def patchy : List Component := [missingRead, countedCall, missingRead, countedCall]

theorem patchy_contained :
    ∃ z outcome v,
      (Component.schema "Patchy" patchy).run 1 (.make "Root" .off false 0) ∅ World.empty = some z ∧
      z.result = .ok outcome ∧
      outcome.register.get? "count" = some (.int 2) ∧
      (Component.schema "Patchy" [countedCall, countedCall]).Ends (.make "Root" .off false 0) ∅
        World.empty (.ok outcome) v ∧
      z.state.Same v := by
  obtain ⟨z, hrun⟩ : ∃ z, (Component.schema "Patchy" patchy).run 1 (.make "Root" .off false 0) ∅
      World.empty = some z := ⟨_, rfl⟩
  have hcount : ((Component.schema "Patchy" patchy).run 1 (.make "Root" .off false 0) ∅
      World.empty).map (fun z => z.result.toOption.map (·.register.get? "count")) =
        some (some (some (.int 2))) := by decide +kernel
  have hflags : (recordedSteps 1 "Patchy" patchy (.make "Root" .off false 0) 0 ∅
      (World.empty, [])).map (fun z => z.state.2.map StepCall.failed) =
        some [true, false, true, false] := by decide +kernel
  obtain ⟨calls, outcome, hrecorded, hresult, hsteps, _, hcall, _, hsame⟩ :=
    failures_are_contained rfl hrun
  rw [hrun, Option.map_some, hresult] at hcount
  rw [hrecorded] at hflags
  -- the record holds four calls, of which the two reads failed
  obtain ⟨c₁, _, rfl, h₁, hflags⟩ := List.map_eq_cons_iff.mp (Option.some.inj hflags)
  obtain ⟨c₂, _, rfl, h₂, hflags⟩ := List.map_eq_cons_iff.mp hflags
  obtain ⟨c₃, _, rfl, h₃, hflags⟩ := List.map_eq_cons_iff.mp hflags
  obtain ⟨c₄, _, rfl, h₄, hflags⟩ := List.map_eq_cons_iff.mp hflags
  cases List.map_eq_nil_iff.mp hflags
  have hpatchy : [c₁.step, c₂.step, c₃.step, c₄.step] = patchy := hsteps.eq_of_length rfl
  simp only [patchy, List.cons.injEq, and_true] at hpatchy
  obtain ⟨hstep₁, _, hstep₃, _⟩ := hpatchy
  have hcontents : ∀ step ∈ patchy, step.Every Component.SeesContents Predicate.SeesContents := by
    intro step hmem
    simp only [patchy, List.mem_cons, List.not_mem_nil, or_false] at hmem
    rcases hmem with rfl | rfl | rfl | rfl
    · trivial
    · exact tally_respects
    · trivial
    · exact tally_respects
  have hleft : ∀ call ∈ [c₁, c₂, c₃, c₄], call.failed = true → call.before.Same call.run.state := by
    intro call hmem hfailed
    obtain ⟨before, after, hsplit⟩ := List.append_of_mem hmem
    obtain ⟨hread, _⟩ := hcall before call after hsplit
    have hstep : call.step = missingRead := by
      simp only [List.mem_cons, List.not_mem_nil, or_false] at hmem
      rcases hmem with rfl | rfl | rfl | rfl
      · exact hstep₁
      · rw [h₂] at hfailed
        cases hfailed
      · exact hstep₃
      · rw [h₄] at hfailed
        cases hfailed
    rw [hstep] at hread
    exact same_of_getMemory hread
  obtain ⟨v, hends, hv⟩ := hsame hcontents hleft
  simp only [StepCall.withoutFailed, patchy, h₁, h₂, h₃, h₄, if_true] at hends
  exact ⟨z, outcome, v, hrun, hresult, Option.some.inj (Option.some.inj hcount), hends, hv⟩

end Pipeline
