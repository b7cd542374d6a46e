import Pipeline.Proofs.Recording
import Pipeline.Stock.Executable
import Pipeline.Stock.Predicate

/-!
# Switches one after another

A switch over two lists of branches offers the register to the first list.  Either a branch of
it ends the switch, and the second list is not asked, or the switch goes on to the second list
as a switch of its own would (`switches_compose`).  Only the indices in its reports differ.

The outcome of a switch does not show whether a branch ended it: a branch that leaves may give
the register that would also have come through.  So the law is proved for the run with a record
of its offers (`recordedBranches`), and `Offers` says what that record holds.
-/

namespace Pipeline

/-! ## Offers -/

/-- A branch that was offered a register, and what came of it. -/
structure BranchOffer where
  branch : Branch
  register : Record
  before : World
  run : Run World ExecutionError BranchOutcome

/-- Where a switch stands after some branches. -/
inductive SwitchEnd
  /-- None of them ended it. -/
  | through (register : Record)
  /-- One of them did. -/
  | left (result : Except ExecutionError Outcome)

/-- What a switch gives that ends there. -/
def SwitchEnd.result : SwitchEnd → Except ExecutionError Outcome
  | .through register => .ok (.next register)
  | .left result => result

namespace BranchOffer

/-- Where the switch stands after the offer. -/
def leads (offer : BranchOffer) : SwitchEnd :=
  match offer.run.result with
  | .error error => .left (.error error)
  | .ok (.skipped r) => .through r
  | .ok (.taken (.exitLoop r)) => .left (.ok (.exitLoop r))
  | .ok (.taken (.next r)) => if offer.branch.exits then .left (.ok (.next r)) else .through r

/-- The branch was taken, and the switch ends with it. -/
def TakenToLeave (offer : BranchOffer) : Prop :=
  offer.branch.exits = true ∧ ∃ outcome, offer.run.result = .ok (.taken outcome)

/-- The events of an offer to the branch at an index: those of the condition and the body, and
the report of the switch that it was taken. -/
def events (name : String) (e : Evaluator) (offer : BranchOffer) (index : Nat) : List Event :=
  offer.run.events ++
    match offer.run.result with
    | .ok (.taken (.next _)) => e.logger.log (.branchTaken name offer.branch.name index)
    | _ => []

/-- The events of offers to branches that stand in a row from an index on. -/
def trace (name : String) (e : Evaluator) (index : Nat) (offers : List BranchOffer) : List Event :=
  (offers.zipIdx index).flatMap fun (offer, i) => offer.events name e i

theorem trace_cons (name : String) (e : Evaluator) (index : Nat) (offer : BranchOffer)
    (offers : List BranchOffer) :
    trace name e index (offer :: offers) =
      offer.events name e index ++ trace name e (index + 1) offers := rfl

theorem trace_append (name : String) (e : Evaluator) (index : Nat)
    (offers offers' : List BranchOffer) :
    trace name e index (offers ++ offers') =
      trace name e index offers ++ trace name e (index + offers.length) offers' := by
  simp only [trace, List.zipIdx_append, List.flatMap_append]

end BranchOffer

/-- An offer of a register to a branch, which is put on record. -/
def recordedOffer (rounds : Nat) (e : Evaluator) (branch : Branch) (register : Record) :
    Process (World × List BranchOffer) ExecutionError BranchOutcome :=
  (branch.offer rounds e register).noting fun w z offers => offers ++ [⟨branch, register, w, z⟩]

/-- The branches of a switch, with a record of the offers beside the world. -/
def recordedBranches (rounds : Nat) (name : String) (branches : List Branch) (e : Evaluator) :
    (index : Nat) → Record → Process (World × List BranchOffer) ExecutionError Outcome :=
  Process.branches (recordedOffer rounds e) name e branches

theorem recordedBranches_forgets (rounds : Nat) (name : String) (branches : List Branch)
    (e : Evaluator) (index : Nat) (register : Record) :
    Process.Forgets (recordedBranches rounds name branches e index register)
      (runBranches rounds name branches e index register) := by
  rw [runBranches_eq_branches]
  exact .branches (fun _ _ => .noting _ _) name e branches index register

/-! ## One offer -/

section

variable {rounds : Nat} {name : String} {e : Evaluator} {branch : Branch} {rest : List Branch}
variable {index : Nat} {register r : Record} {w : World} {earlier : List BranchOffer}
variable {z : Run World ExecutionError BranchOutcome}

theorem recordedOffer_of_some {result : Except ExecutionError BranchOutcome} {events : List Event}
    {w' : World} (h : branch.offer rounds e register w = some ⟨result, events, w'⟩)
    (earlier : List BranchOffer) :
    recordedOffer rounds e branch register (w, earlier) = some ⟨result, events,
      (w', earlier ++ [⟨branch, register, w, ⟨result, events, w'⟩⟩])⟩ :=
  Process.noting_of_some h earlier

theorem recordedBranches_of_none (h : branch.offer rounds e register w = none) :
    recordedBranches rounds name (branch :: rest) e index register (w, earlier) = none := by
  refine Process.bind_of_none ?_
  rw [recordedOffer, Process.noting, h]
  rfl

/-- A branch that ends the switch has the last word. -/
theorem recordedBranches_of_left {result : Except ExecutionError Outcome}
    (h : branch.offer rounds e register w = some z)
    (hleft : BranchOffer.leads ⟨branch, register, w, z⟩ = .left result) :
    recordedBranches rounds name (branch :: rest) e index register (w, earlier) =
      some ⟨result, BranchOffer.events name e ⟨branch, register, w, z⟩ index,
        (z.state, earlier ++ [⟨branch, register, w, z⟩])⟩ := by
  obtain ⟨error | ((r | r) | r), events, v⟩ := z
  · cases hleft
    refine (Process.bind_of_error (recordedOffer_of_some h earlier)).trans ?_
    simp [BranchOffer.events]
  · refine (Process.bind_of_ok (recordedOffer_of_some h earlier)).trans ?_
    simp only [BranchOffer.leads] at hleft
    split at hleft
    · next hexits =>
      cases hleft
      dsimp only
      rw [Process.bind_of_ok (Process.emit_apply _ _), if_pos hexits]
      simp [Process.pure_apply, Run.after, BranchOffer.events]
    · cases hleft
  · cases hleft
    refine (Process.bind_of_ok (recordedOffer_of_some h earlier)).trans ?_
    simp [Process.pure_apply, Run.after, BranchOffer.events]
  · cases hleft

/-- After any other branch, the switch goes on. -/
theorem recordedBranches_of_through (h : branch.offer rounds e register w = some z)
    (hthrough : BranchOffer.leads ⟨branch, register, w, z⟩ = .through r) :
    recordedBranches rounds name (branch :: rest) e index register (w, earlier) =
      (recordedBranches rounds name rest e (index + 1) r
        (z.state, earlier ++ [⟨branch, register, w, z⟩])).map
          (·.after (BranchOffer.events name e ⟨branch, register, w, z⟩ index)) := by
  obtain ⟨error | ((r' | r') | r'), events, v⟩ := z
  · cases hthrough
  · refine (Process.bind_of_ok (recordedOffer_of_some h earlier)).trans ?_
    simp only [BranchOffer.leads] at hthrough
    split at hthrough
    · cases hthrough
    · next hexits =>
      cases hthrough
      dsimp only
      rw [Process.bind_of_ok (Process.emit_apply _ _), if_neg hexits, Option.map_map]
      simp only [Function.comp_def, Run.after_after]
      rfl
  · cases hthrough
  · cases hthrough
    refine (Process.bind_of_ok (recordedOffer_of_some h earlier)).trans ?_
    simp only [BranchOffer.events, List.append_nil]
    rfl

/-- A branch whose condition does not hold hands on the register that it was offered. -/
theorem offer_eq_skipped {r' : Record} {events : List Event} {w' : World} :
    branch.offer rounds e r w = some ⟨.ok (.skipped r'), events, w'⟩ ↔
      holds rounds branch.condition e r w = some ⟨.ok false, events, w'⟩ ∧ r' = r := by
  obtain ⟨label, condition, body, exits⟩ := branch
  change Branch.offer rounds (.mk label condition body exits) e r w = _ ↔
    holds rounds condition e r w = _ ∧ _
  rw [Branch.offer, Process.bind_eq_ok]
  constructor
  · rintro ⟨answer, checked, u, worked, hcheck, hrest, rfl⟩
    cases answer with
    | false =>
      cases hrest
      exact ⟨by rw [hcheck, List.append_nil], rfl⟩
    | true =>
      obtain ⟨_, _, _, _, _, hgives, _⟩ := Process.bind_eq_ok.mp hrest
      cases hgives
  · rintro ⟨hcheck, rfl⟩
    exact ⟨false, events, w', [], hcheck, rfl, (List.append_nil _).symm⟩

end

/-! ## All offers -/

/-- A register is offered to branches one after another: the offers, where the switch stands
then, and the world. -/
inductive Offers (rounds : Nat) (e : Evaluator) :
    List Branch → Record → World → List BranchOffer → SwitchEnd → World → Prop
  | none {register : Record} {w : World} : Offers rounds e [] register w [] (.through register) w
  | left {branch : Branch} {rest : List Branch} {register : Record} {w : World}
      {z : Run World ExecutionError BranchOutcome} {result : Except ExecutionError Outcome} :
      branch.offer rounds e register w = some z →
        BranchOffer.leads ⟨branch, register, w, z⟩ = .left result →
        Offers rounds e (branch :: rest) register w [⟨branch, register, w, z⟩] (.left result)
          z.state
  | through {branch : Branch} {rest : List Branch} {register r : Record} {w w' : World}
      {z : Run World ExecutionError BranchOutcome} {offers : List BranchOffer}
      {finish : SwitchEnd} :
      branch.offer rounds e register w = some z →
        BranchOffer.leads ⟨branch, register, w, z⟩ = .through r →
        Offers rounds e rest r z.state offers finish w' →
        Offers rounds e (branch :: rest) register w (⟨branch, register, w, z⟩ :: offers) finish w'

section

variable {rounds : Nat} {name : String} {e : Evaluator} {branches first second : List Branch}
variable {register r : Record} {w w' : World} {offers : List BranchOffer} {finish : SwitchEnd}

/-- Every run of a switch makes such offers. -/
theorem offers_of_recorded {index : Nat} {earlier : List BranchOffer}
    {z : Run (World × List BranchOffer) ExecutionError Outcome}
    (h : recordedBranches rounds name branches e index register (w, earlier) = some z) :
    ∃ offers finish w', Offers rounds e branches register w offers finish w' ∧
      z = ⟨finish.result, BranchOffer.trace name e index offers, (w', earlier ++ offers)⟩ := by
  induction branches generalizing index register w earlier z with
  | nil =>
    cases h
    exact ⟨[], _, w, .none, by rw [List.append_nil]; rfl⟩
  | cons branch rest ih =>
    cases hoffer : branch.offer rounds e register w with
    | none =>
      rw [recordedBranches_of_none hoffer] at h
      cases h
    | some run =>
      cases hleads : BranchOffer.leads ⟨branch, register, w, run⟩ with
      | left result =>
        rw [recordedBranches_of_left hoffer hleads] at h
        cases h
        refine ⟨_, _, _, .left hoffer hleads, ?_⟩
        rw [BranchOffer.trace_cons]
        exact congrArg (Run.mk _ · _) (List.append_nil _).symm
      | through r =>
        rw [recordedBranches_of_through hoffer hleads] at h
        obtain ⟨z, hrest, rfl⟩ := Option.map_eq_some_iff.mp h
        obtain ⟨offers, finish, w', hoffers, rfl⟩ := ih hrest
        refine ⟨_, finish, w', .through hoffer hleads hoffers, ?_⟩
        rw [BranchOffer.trace_cons, List.append_assoc, List.singleton_append]
        rfl

namespace Offers

/-- The record holds the offers. -/
theorem recorded (h : Offers rounds e branches register w offers finish w') (name : String)
    (index : Nat) (earlier : List BranchOffer) :
    recordedBranches rounds name branches e index register (w, earlier) =
      some ⟨finish.result, BranchOffer.trace name e index offers, (w', earlier ++ offers)⟩ := by
  induction h generalizing index earlier with
  | none =>
    rw [List.append_nil]
    rfl
  | left hoffer hleads =>
    rw [recordedBranches_of_left hoffer hleads, BranchOffer.trace_cons]
    exact congrArg (fun events => some (Run.mk _ events _)) (List.append_nil _).symm
  | through hoffer hleads _ ih =>
    rw [recordedBranches_of_through hoffer hleads, ih, List.append_assoc, List.singleton_append,
      BranchOffer.trace_cons]
    rfl

/-- A branch that ends the switch leaves no offers for other branches. -/
theorem append_of_left {result : Except ExecutionError Outcome}
    (h : Offers rounds e first register w offers (.left result) w') (second : List Branch) :
    Offers rounds e (first ++ second) register w offers (.left result) w' := by
  generalize hleft : SwitchEnd.left result = finish at h ⊢
  induction h with
  | none => cases hleft
  | left hoffer hleads => exact .left hoffer hleads
  | through hoffer hleads _ ih => exact .through hoffer hleads (ih hleft)

/-- Past branches that did not end it, a switch goes on with the others. -/
theorem append_of_through {offers' : List BranchOffer} {w'' : World}
    (h : Offers rounds e first register w offers (.through r) w')
    (hsecond : Offers rounds e second r w' offers' finish w'') :
    Offers rounds e (first ++ second) register w (offers ++ offers') finish w'' := by
  generalize hthrough : SwitchEnd.through r = stand at h
  induction h with
  | none =>
    cases hthrough
    exact hsecond
  | left => cases hthrough
  | through hoffer hleads _ ih => exact .through hoffer hleads (ih hsecond hthrough)

/-- The offers are made to the first branches, in order. -/
theorem branches_prefix (h : Offers rounds e branches register w offers finish w') :
    offers.map BranchOffer.branch <+: branches := by
  induction h with
  | none => exact List.prefix_refl _
  | left => exact ⟨_, rfl⟩
  | through _ _ _ ih => exact (List.prefix_cons_inj _).mpr ih

/-- All branches are asked, unless one of them ends the switch. -/
theorem branches_eq_of_through (h : Offers rounds e branches register w offers (.through r) w') :
    offers.map BranchOffer.branch = branches := by
  generalize hthrough : SwitchEnd.through r = finish at h
  induction h with
  | none => rfl
  | left => cases hthrough
  | through _ _ _ ih => exact congrArg (_ :: ·) (ih hthrough)

/-- Offers to two lists of branches start with offers to the first. -/
theorem of_append (h : Offers rounds e (first ++ second) register w offers finish w') :
    ∃ offers finish w', Offers rounds e first register w offers finish w' := by
  induction first generalizing register w offers with
  | nil => exact ⟨_, _, _, .none⟩
  | cons branch rest ih =>
    cases h with
    | left hoffer hleads => exact ⟨_, _, _, .left hoffer hleads⟩
    | through hoffer hleads hrest =>
      obtain ⟨offers, finish, w', h⟩ := ih hrest
      exact ⟨_, _, _, .through hoffer hleads h⟩

/-- They go on with offers to the second, if the first comes through. -/
theorem of_append_of_through {earlier : List BranchOffer} {v : World}
    (h : Offers rounds e (first ++ second) register w offers finish w')
    (hfirst : Offers rounds e first register w earlier (.through r) v) :
    ∃ offers, Offers rounds e second r v offers finish w' := by
  generalize hthrough : SwitchEnd.through r = stand at hfirst
  induction hfirst generalizing offers with
  | none =>
    cases hthrough
    exact ⟨_, h⟩
  | left => cases hthrough
  | through hoffer hleads _ ih =>
    cases h with
    | left hoffer' hleads' =>
      cases hoffer.symm.trans hoffer'
      cases hleads.symm.trans hleads'
    | through hoffer' hleads' hrest =>
      cases hoffer.symm.trans hoffer'
      cases hleads.symm.trans hleads'
      exact ih hrest hthrough

end Offers

end

/-! ## The result -/

/-- A branch ended the switch that gave the result after these offers: it failed, it gave the
signal that ends a loop, or it was taken and the switch ends with it. -/
def Stopped (result : Except ExecutionError Outcome) (offers : List BranchOffer) : Prop :=
  (∃ error, result = .error error) ∨ (∃ r, result = .ok (.exitLoop r)) ∨
    ∃ offer ∈ offers, offer.TakenToLeave

theorem BranchOffer.of_leads_left {offer : BranchOffer}
    {result : Except ExecutionError Outcome} (h : offer.leads = .left result) :
    (∃ error, result = .error error) ∨ (∃ r, result = .ok (.exitLoop r)) ∨
      offer.TakenToLeave := by
  obtain ⟨branch, register, before, error | ((r | r) | r), events, v⟩ := offer
  · cases h
    exact .inl ⟨error, rfl⟩
  · simp only [BranchOffer.leads] at h
    split at h
    · next hexits => exact .inr (.inr ⟨hexits, _, rfl⟩)
    · cases h
  · cases h
    exact .inr (.inl ⟨r, rfl⟩)
  · cases h

theorem BranchOffer.not_takenToLeave {offer : BranchOffer} {r : Record}
    (h : offer.leads = .through r) : ¬ offer.TakenToLeave := by
  rintro ⟨hexits, outcome, htaken⟩
  rw [BranchOffer.leads, htaken] at h
  cases outcome with
  | next => simp [hexits] at h
  | exitLoop => cases h

/-- Where a switch stands shows in its result and its offers. -/
theorem Offers.stopped_iff {rounds : Nat} {e : Evaluator} {branches : List Branch}
    {register : Record} {w w' : World} {offers : List BranchOffer} {finish : SwitchEnd}
    (h : Offers rounds e branches register w offers finish w') :
    Stopped finish.result offers ↔ ∃ result, finish = .left result := by
  induction h with
  | none => simp [Stopped, SwitchEnd.result]
  | left _ hleads =>
    refine iff_of_true ?_ ⟨_, rfl⟩
    obtain herror | hexit | hleave := BranchOffer.of_leads_left hleads
    · exact .inl herror
    · exact .inr (.inl hexit)
    · exact .inr (.inr ⟨_, .head _, hleave⟩)
  | through _ hleads _ ih =>
    rw [← ih]
    simp [Stopped, BranchOffer.not_takenToLeave hleads]

/-- A switch asks its branches from the first one on. -/
theorem offers_of_run {rounds : Nat} {name : String} {e : Evaluator} {branches : List Branch}
    {register : Record} {w : World} {z : Run World ExecutionError Outcome}
    (h : (Component.switch name branches).run rounds e register w = some z) :
    ∃ offers finish, Offers rounds e branches register w offers finish z.state ∧
      z = ⟨finish.result, BranchOffer.trace name e 0 offers, z.state⟩ := by
  have hforget := (recordedBranches_forgets rounds name branches e 0 register w []).trans h
  obtain ⟨recorded, hrecorded, rfl⟩ := Option.map_eq_some_iff.mp hforget
  obtain ⟨offers, finish, w', hoffers, rfl⟩ := offers_of_recorded hrecorded
  exact ⟨offers, finish, hoffers, rfl⟩

theorem Offers.run {rounds : Nat} {e : Evaluator} {branches : List Branch} {register : Record}
    {w w' : World} {offers : List BranchOffer} {finish : SwitchEnd}
    (h : Offers rounds e branches register w offers finish w') (name : String) :
    (Component.switch name branches).run rounds e register w =
      some ⟨finish.result, BranchOffer.trace name e 0 offers, w'⟩ := by
  refine (recordedBranches_forgets rounds name branches e 0 register w []).symm.trans ?_
  rw [h.recorded]
  rfl

/-- A switch over two lists of branches, by what a switch over the first does.  If that fails,
gives the signal or is left with a branch, both do the same, and no branch of the second list is
asked.  Otherwise the switch does next what a switch over the second list does where the first
one ended, and only the indices in its reports are those of the longer list.

A branch whose condition does not hold hands on its register. -/
theorem switches_compose (rounds : Nat) (name : String) (e : Evaluator)
    (first second : List Branch) (register : Record) (w : World) :
    let run := fun branches => (Component.switch name branches).run rounds e
    let recorded := fun branches => recordedBranches rounds name branches e 0
    (run first register w = none → run (first ++ second) register w = none) ∧
    (∀ z, run first register w = some z → ∃ offers,
      recorded first register (w, []) = some ⟨z.result, z.events, (z.state, offers)⟩ ∧
      offers.map BranchOffer.branch <+: first ∧
      (Stopped z.result offers →
        run (first ++ second) register w = some z ∧
        recorded (first ++ second) register (w, []) =
          some ⟨z.result, z.events, (z.state, offers)⟩) ∧
      (¬ Stopped z.result offers → ∃ r, z.result = .ok (.next r) ∧
        offers.map BranchOffer.branch = first ∧
        (run second r z.state = none → run (first ++ second) register w = none) ∧
        ∀ z', run second r z.state = some z' → ∃ offers',
          recorded second r (z.state, []) = some ⟨z'.result, z'.events, (z'.state, offers')⟩ ∧
          z'.events = BranchOffer.trace name e 0 offers' ∧
          run (first ++ second) register w = some ⟨z'.result,
            z.events ++ BranchOffer.trace name e first.length offers', z'.state⟩ ∧
          recorded (first ++ second) register (w, []) = some ⟨z'.result,
            z.events ++ BranchOffer.trace name e first.length offers',
            (z'.state, offers ++ offers')⟩)) ∧
    ∀ (branch : Branch) r v r' events v',
      branch.offer rounds e r v = some ⟨.ok (.skipped r'), events, v'⟩ ↔
        holds rounds branch.condition e r v = some ⟨.ok false, events, v'⟩ ∧ r' = r := by
  intro run recorded
  refine ⟨fun hnone => ?_, fun z hz => ?_, fun _ _ _ _ _ _ => offer_eq_skipped⟩
  · refine Option.eq_none_iff_forall_ne_some.mpr fun z hz => ?_
    obtain ⟨_, _, hoffers, _⟩ := offers_of_run hz
    obtain ⟨_, _, _, hfirst⟩ := hoffers.of_append
    cases hnone.symm.trans (hfirst.run name)
  · obtain ⟨offers, finish, hfirst, hz'⟩ := offers_of_run hz
    rw [hz']
    refine ⟨offers, hfirst.recorded name 0 [], hfirst.branches_prefix, fun hstopped => ?_,
      fun hgoes => ?_⟩
    · obtain ⟨result, rfl⟩ := hfirst.stopped_iff.mp hstopped
      have hall := hfirst.append_of_left second
      exact ⟨hall.run name, hall.recorded name 0 []⟩
    · cases finish with
      | left result => exact absurd (hfirst.stopped_iff.mpr ⟨result, rfl⟩) hgoes
      | through r =>
        refine ⟨r, rfl, hfirst.branches_eq_of_through, fun hnone => ?_, fun z' hz' => ?_⟩
        · refine Option.eq_none_iff_forall_ne_some.mpr fun z' hz' => ?_
          obtain ⟨_, _, hoffers, _⟩ := offers_of_run hz'
          obtain ⟨_, hsecond⟩ := hoffers.of_append_of_through hfirst
          cases hnone.symm.trans (hsecond.run name)
        · obtain ⟨offers', finish', hsecond, hz'⟩ := offers_of_run hz'
          rw [hz']
          have hall := hfirst.append_of_through hsecond
          have htrace : BranchOffer.trace name e 0 (offers ++ offers') =
              BranchOffer.trace name e 0 offers ++
                BranchOffer.trace name e first.length offers' := by
            rw [BranchOffer.trace_append, Nat.zero_add, ← hfirst.branches_eq_of_through,
              List.length_map]
          refine ⟨offers', hsecond.recorded name 0 [], rfl, ?_, ?_⟩
          · exact htrace ▸ hall.run name
          · exact htrace ▸ hall.recorded name 0 []

/-- Counts, in a branch that may end its switch. -/
def countingBranch (exits : Bool) : Branch :=
  .mk "Count" none (.ofAction (Stock.add "f" 1 true)) exits

/-- A branch that is never taken. -/
def idleBranch : Branch := .mk "Idle" (some Stock.never) (.exit "Exit") true

/-- The first switch comes through; the second one is left, and keeps a third from being asked. -/
theorem counting_switches_compose :
    let e := Evaluator.make "Root" .debug true 0
    let run := fun branches => (Component.switch "Switch" branches).run 1 e
    let counted := fun (n : Int) (indices : List Nat) =>
      some (Run.mk (.ok (.next (Stock.record [("f", .int n)])))
        (indices.flatMap fun i => (e.child "Count").logger.log (.actionExecuted "ExecuteFunction") ++
          e.logger.log (.branchTaken "Switch" "Count" i)) World.empty)
    run [idleBranch, countingBranch false] ∅ World.empty = counted 1 [1] ∧
    run [countingBranch true] (Stock.record [("f", .int 1)]) World.empty = counted 2 [0] ∧
    run ([idleBranch, countingBranch false] ++ [countingBranch true]) ∅ World.empty =
      counted 2 [1, 2] ∧
    run ([countingBranch true] ++ [countingBranch true]) (Stock.record [("f", .int 1)])
      World.empty = counted 2 [0] := by
  intro e run counted
  have hfirst : run [idleBranch, countingBranch false] ∅ World.empty = counted 1 [1] := rfl
  have hsecond : run [countingBranch true] (Stock.record [("f", .int 1)]) World.empty =
    counted 2 [0] := rfl
  refine ⟨hfirst, hsecond, ?_, ?_⟩
  · obtain ⟨_, hthrough, _⟩ := switches_compose 1 "Switch" e [idleBranch, countingBranch false]
      [countingBranch true] ∅ World.empty
    obtain ⟨offers, hrecorded, _, _, hgoes⟩ := hthrough _ hfirst
    have hnot : ¬ Stopped (.ok (.next (Stock.record [("f", .int 1)]))) offers := by
      cases (show recordedBranches 1 "Switch" [idleBranch, countingBranch false] e 0 ∅
        (World.empty, []) = some _ from rfl).symm.trans hrecorded
      rintro (⟨_, h⟩ | ⟨_, h⟩ | ⟨offer, hmem, hexits, outcome, htaken⟩)
      · cases h
      · cases h
      · rcases hmem with _ | ⟨_, _ | ⟨_, hmem⟩⟩
        · cases htaken
        · cases hexits
        · cases hmem
    obtain ⟨_, hresult, _, _, hnext⟩ := hgoes hnot
    cases hresult
    obtain ⟨offers', hrecorded', _, hboth, _⟩ := hnext _ hsecond
    cases (show recordedBranches 1 "Switch" [countingBranch true] e 0 (Stock.record [("f", .int 1)])
      (World.empty, []) = some _ from rfl).symm.trans hrecorded'
    exact hboth
  · obtain ⟨_, hleft, _⟩ := switches_compose 1 "Switch" e [countingBranch true]
      [countingBranch true] (Stock.record [("f", .int 1)]) World.empty
    obtain ⟨offers, hrecorded, _, hstops, _⟩ := hleft _ hsecond
    refine (hstops ?_).1
    cases (show recordedBranches 1 "Switch" [countingBranch true] e 0 (Stock.record [("f", .int 1)])
      (World.empty, []) = some _ from rfl).symm.trans hrecorded
    exact .inr (.inr ⟨_, .head _, rfl, _, rfl⟩)

end Pipeline
