import Mathlib.Data.List.Forall2
import Pipeline.Config.Build
import Pipeline.Proofs.MemoryActions

/-!
# Building pipelines from their configuration

A step that cannot be built is refused for one reason: its action is not listed, an option that it
requires is missing, or its options do not have the form of the built-in.  `StepConfig.Refused` says
which reason comes first, and `StepConfig.build_eq_error_iff` that this reason is the error.

The steps are built in order and the memory is opened once all of them are there, so the first step
that is refused decides: what comes after it and the settings of the memory make no difference, and
nothing has happened to the world (`PipelineConfig.build_of_refused`).
-/

namespace Pipeline

/-! ## Built-ins -/

namespace BuiltIn

/-- The display name of a built-in's component when its step has none. -/
def displayName : BuiltIn → String
  | .flush => "Flush"
  | .addData => "AddData"
  | .rename => "RenameAttribute"
  | .renameQuery => "RenameAttributeQuery"
  | .setValue => "SetValue"
  | .unpackValue => "UnpackValue"
  | .nestToKey => "NestToKey"
  | .setMemory => "SetMemory"
  | .getMemory => "GetMemory"
  | .deleteMemory => "DeleteMemory"
  | .log => "Log"

/-- Whether options have the form of a built-in. -/
def checkOptions (options : Record) : BuiltIn → Decoded Unit
  | .flush => (flushOptions options).map fun _ => ()
  | .addData => (addDataOptions options).map fun _ => ()
  | .rename => (renameOptions options).map fun _ => ()
  | .renameQuery => (queryOptions options).map fun _ => ()
  | .setValue => (setValueOptions options).map fun _ => ()
  | .unpackValue => (keyOptions options).map fun _ => ()
  | .nestToKey => (keyOptions options).map fun _ => ()
  | .setMemory => (setMemoryOptions options).map fun _ => ()
  | .getMemory => (getMemoryOptions options).map fun _ => ()
  | .deleteMemory => (deleteMemoryOptions options).map fun _ => ()
  | .log => (logOptions options).map fun _ => ()

theorem ofName?_eq_some_iff {action : String} {b : BuiltIn} :
    ofName? action = some b ↔ b.name = action := by
  constructor
  · intro h
    unfold ofName? at h
    split at h <;> cases h <;> rfl
  · rintro rfl
    cases b <;> rfl

theorem mem_names_iff {action : String} : action ∈ names ↔ ∃ b : BuiltIn, b.name = action := by
  have hall : ∀ b : BuiltIn, b ∈ all := by
    intro b
    cases b <;> decide
  rw [names, List.mem_map]
  constructor
  · rintro ⟨b, -, hname⟩
    exact ⟨b, hname⟩
  · rintro ⟨b, hname⟩
    exact ⟨b, hall b, hname⟩

/-- What is listed is what can be built. -/
theorem ofName?_eq_none_iff {action : String} : ofName? action = none ↔ action ∉ names := by
  rw [mem_names_iff, Option.eq_none_iff_forall_ne_some]
  simp only [ne_eq, ofName?_eq_some_iff, not_exists]

end BuiltIn

/-! ## One step -/

namespace StepConfig

/-- The options that a built-in requires are all there. -/
def Complete (c : StepConfig) (b : BuiltIn) : Prop :=
  ∀ option ∈ b.required, c.options.contains option = true

/-- Why the step at an index cannot be built, as the error that says so. -/
inductive Refused (c : StepConfig) (index : Nat) : ConfigError → Prop
  /-- No built-in is listed under the name. -/
  | unlisted : c.action ∉ BuiltIn.names → Refused c index (.unknownAction index c.action)
  /-- An option is missing, and none of those that are required before it. -/
  | missing {b : BuiltIn} {before after : List String} {option : String} :
      b.name = c.action → b.required = before ++ option :: after →
        (∀ earlier ∈ before, c.options.contains earlier = true) →
        c.options.contains option = false →
        Refused c index (.missingOption index c.action option)
  /-- No required option is missing, and the options do not have the form of the built-in. -/
  | undecodable {b : BuiltIn} {fault : DecodeFault} :
      b.name = c.action → c.Complete b → b.checkOptions c.options = .error fault →
        Refused c index (.invalidOption index c.action "options" (.decoding fault))
  /-- The options are those of a rename query, and their text is no query. -/
  | malformedQuery {text : String} {cause : ExecutionError} :
      BuiltIn.renameQuery.name = c.action → c.Complete .renameQuery →
        queryOptions c.options = .ok text → RenameQuery.parse text = .error cause →
        Refused c index (.invalidOption index c.action "query" (.refused cause))

variable {c : StepConfig} {index : Nat} {b : BuiltIn} {component : Component} {error : ConfigError}

theorem build_of_unlisted (h : c.action ∉ BuiltIn.names) (index : Nat) :
    c.build index = .error (.unknownAction index c.action) := by
  rw [build, BuiltIn.ofName?_eq_none_iff.mpr h]

theorem build_of_missing {before after : List String} {option : String} (hname : b.name = c.action)
    (hsplit : b.required = before ++ option :: after)
    (hbefore : ∀ earlier ∈ before, c.options.contains earlier = true)
    (habsent : c.options.contains option = false) (index : Nat) :
    c.build index = .error (.missingOption index c.action option) := by
  have hfind : b.required.find? (fun option => !c.options.contains option) = some option := by
    rw [List.find?_eq_some_iff_append]
    refine ⟨by rw [habsent]; rfl, before, after, hsplit, fun earlier hmem => ?_⟩
    rw [hbefore earlier hmem]
    rfl
  simp only [build, BuiltIn.ofName?_eq_some_iff.mpr hname, hfind]

theorem build_of_complete (hname : b.name = c.action) (hcomplete : c.Complete b) (index : Nat) :
    c.build index = c.buildAs index b := by
  have hfind : b.required.find? (fun option => !c.options.contains option) = none := by
    rw [List.find?_eq_none]
    intro option hmem
    rw [hcomplete option hmem]
    exact Bool.false_ne_true
  simp only [build, BuiltIn.ofName?_eq_some_iff.mpr hname, hfind]

/-- Either the required options are there, or one of them is the first that is missing. -/
theorem complete_or_missing (c : StepConfig) (b : BuiltIn) :
    c.Complete b ∨ ∃ before option after, b.required = before ++ option :: after ∧
      (∀ earlier ∈ before, c.options.contains earlier = true) ∧
      c.options.contains option = false := by
  cases hfind : b.required.find? (fun option => !c.options.contains option) with
  | none =>
    left
    intro option hmem
    have hcontains := List.find?_eq_none.mp hfind option hmem
    simpa using hcontains
  | some option =>
    right
    obtain ⟨habsent, before, after, hsplit, hbefore⟩ := List.find?_eq_some_iff_append.mp hfind
    exact ⟨before, option, after, hsplit, by simpa using hbefore, by simpa using habsent⟩

/-- Reading options fails with their fault, or else what follows decides. -/
theorem parseOptions_bind_eq_error_iff {S : Type} {decode : Record → Decoded S}
    {f : S → Except ConfigError Component} :
    (c.parseOptions index decode >>= f) = .error error ↔
      (∃ fault, ((decode c.options).map fun _ => ()) = .error fault ∧
        error = .invalidOption index c.action "options" (.decoding fault)) ∨
      ∃ options, decode c.options = .ok options ∧ f options = .error error := by
  rw [parseOptions]
  cases decode c.options with
  | error fault =>
    constructor
    · intro h
      cases h
      exact .inl ⟨fault, rfl, rfl⟩
    · rintro (⟨_, hfault, rfl⟩ | ⟨_, hoptions, -⟩)
      · cases hfault
        rfl
      · cases hoptions
  | ok options =>
    constructor
    · intro h
      exact .inr ⟨options, rfl, h⟩
    · rintro (⟨_, hfault, -⟩ | ⟨_, hoptions, h⟩)
      · cases hfault
      · cases hoptions
        exact h

/-- The same where what follows makes a component of any options. -/
theorem parseOptions_eq_error_iff {S : Type} {decode : Record → Decoded S}
    {f : S → Except ConfigError Component}
    (hf : ∀ options, ∃ component, f options = .ok component) :
    (c.parseOptions index decode >>= f) = .error error ↔
      ∃ fault, ((decode c.options).map fun _ => ()) = .error fault ∧
        error = .invalidOption index c.action "options" (.decoding fault) := by
  rw [parseOptions_bind_eq_error_iff]
  constructor
  · rintro (h | ⟨options, -, h⟩)
    · exact h
    · obtain ⟨component, hok⟩ := hf options
      rw [hok] at h
      cases h
  · exact .inl

/-- A text that is no query is the one fault of options that have the form of their built-in. -/
theorem buildAs_eq_error_iff :
    c.buildAs index b = .error error ↔
      (∃ fault, b.checkOptions c.options = .error fault ∧
        error = .invalidOption index c.action "options" (.decoding fault)) ∨
      (b = .renameQuery ∧ ∃ text cause, queryOptions c.options = .ok text ∧
        RenameQuery.parse text = .error cause ∧
        error = .invalidOption index c.action "query" (.refused cause)) := by
  cases b with
  | renameQuery =>
    rw [buildAs, parseOptions_bind_eq_error_iff, BuiltIn.checkOptions]
    refine or_congr Iff.rfl ⟨?_, ?_⟩
    · rintro ⟨text, htext, herror⟩
      cases hparse : RenameQuery.parse text with
      | ok query => rw [hparse] at herror; cases herror
      | error cause =>
        rw [hparse] at herror
        cases herror
        exact ⟨rfl, text, cause, htext, hparse, rfl⟩
    · rintro ⟨-, text, cause, htext, hparse, rfl⟩
      refine ⟨text, htext, ?_⟩
      rw [hparse]
      rfl
  | flush | addData | rename | setValue | unpackValue | nestToKey | setMemory | getMemory
  | deleteMemory | log =>
    rw [buildAs, parseOptions_eq_error_iff fun _ => ⟨_, rfl⟩, BuiltIn.checkOptions]
    simp

theorem ok_of_parseOptions_bind {S : Type} {decode : Record → Decoded S}
    {f : S → Except ConfigError Component}
    (h : (c.parseOptions index decode >>= f) = .ok component) :
    ∃ options, f options = .ok component := by
  rw [parseOptions] at h
  cases hdecode : decode c.options with
  | error fault => rw [hdecode] at h; cases h
  | ok options => rw [hdecode] at h; exact ⟨options, h⟩

/-- A component has the name of its step, or else that of its built-in. -/
theorem name_of_buildAs (h : c.buildAs index b = .ok component) :
    component.name = c.name.getD b.displayName := by
  cases b with
  | renameQuery =>
    obtain ⟨text, hquery⟩ := ok_of_parseOptions_bind h
    cases hparse : RenameQuery.parse text with
    | error cause => rw [hparse] at hquery; cases hquery
    | ok query => rw [hparse] at hquery; cases hquery; rfl
  | flush | addData | rename | setValue | unpackValue | nestToKey | setMemory | getMemory
  | deleteMemory | log =>
    obtain ⟨options, hok⟩ := ok_of_parseOptions_bind h
    cases hok
    rfl

/-- A step is built just when it is not refused, and its error is the reason. -/
theorem build_eq_error_iff : c.build index = .error error ↔ c.Refused index error := by
  constructor
  · intro h
    by_cases hlisted : c.action ∈ BuiltIn.names
    · obtain ⟨b, hname⟩ := BuiltIn.mem_names_iff.mp hlisted
      rcases c.complete_or_missing b with
        hcomplete | ⟨before, option, after, hsplit, hbefore, habsent⟩
      · rw [build_of_complete hname hcomplete] at h
        obtain ⟨fault, hfault, rfl⟩ | ⟨rfl, text, cause, htext, hparse, rfl⟩ :=
          buildAs_eq_error_iff.mp h
        · exact .undecodable hname hcomplete hfault
        · exact .malformedQuery hname hcomplete htext hparse
      · rw [build_of_missing hname hsplit hbefore habsent] at h
        cases h
        exact .missing hname hsplit hbefore habsent
    · rw [build_of_unlisted hlisted] at h
      cases h
      exact .unlisted hlisted
  · rintro (hlisted | ⟨hname, hsplit, hbefore, habsent⟩ | ⟨hname, hcomplete, hfault⟩ |
      ⟨hname, hcomplete, htext, hparse⟩)
    · exact build_of_unlisted hlisted index
    · exact build_of_missing hname hsplit hbefore habsent index
    · rw [build_of_complete hname hcomplete]
      exact buildAs_eq_error_iff.mpr (.inl ⟨_, hfault, rfl⟩)
    · rw [build_of_complete hname hcomplete]
      exact buildAs_eq_error_iff.mpr (.inr ⟨rfl, _, _, htext, hparse, rfl⟩)

/-- The component is the one that a step with its index is built as. -/
structure BuiltFrom (step : StepConfig × Nat) (component : Component) : Prop where
  built : step.1.build step.2 = .ok component
  /-- It has the name of the step, or else that of the built-in. -/
  named : ∃ b : BuiltIn, b.name = step.1.action ∧
    component.name = step.1.name.getD b.displayName

theorem builtFrom_of_build (h : c.build index = .ok component) :
    BuiltFrom (c, index) component := by
  by_cases hlisted : c.action ∈ BuiltIn.names
  · obtain ⟨b, hname⟩ := BuiltIn.mem_names_iff.mp hlisted
    refine ⟨h, b, hname, ?_⟩
    rcases c.complete_or_missing b with hcomplete | ⟨_, _, _, hsplit, hbefore, habsent⟩
    · rw [build_of_complete hname hcomplete] at h
      exact name_of_buildAs h
    · rw [build_of_missing hname hsplit hbefore habsent] at h
      cases h
  · rw [build_of_unlisted hlisted] at h
    cases h

end StepConfig

/-! ## All steps in order -/

namespace PipelineConfig

open StepConfig (BuiltFrom)

/-- Steps can be built, the first of them at an index. -/
def Buildable (index : Nat) (steps : List StepConfig) : Prop :=
  ∀ step ∈ steps.zipIdx index, ∃ component, step.1.build step.2 = .ok component

section

variable {index : Nat} {c : StepConfig} {rest steps : List StepConfig} {component : Component}
variable {components : List Component} {error : ConfigError}

theorem buildable_nil (index : Nat) : Buildable index [] := List.forall_mem_nil _

theorem buildable_cons : Buildable index (c :: rest) ↔
    (∃ component, c.build index = .ok component) ∧ Buildable (index + 1) rest := by
  rw [Buildable, List.zipIdx_cons, List.forall_mem_cons]
  rfl

theorem buildSteps_of_error (h : c.build index = .error error) (rest : List StepConfig) :
    buildSteps index (c :: rest) = .error error := by
  rw [buildSteps, h]
  rfl

theorem buildSteps_of_ok (h : c.build index = .ok component) (rest : List StepConfig) :
    buildSteps index (c :: rest) = (buildSteps (index + 1) rest).map (component :: ·) := by
  rw [buildSteps, h]
  cases buildSteps (index + 1) rest <;> rfl

/-- What the steps are built as stands in their order. -/
theorem forall₂_of_buildSteps (h : buildSteps index steps = .ok components) :
    List.Forall₂ BuiltFrom (steps.zipIdx index) components := by
  induction steps generalizing index components with
  | nil =>
    cases h
    exact .nil
  | cons c rest ih =>
    cases hstep : c.build index with
    | error error => rw [buildSteps_of_error hstep] at h; cases h
    | ok component =>
      rw [buildSteps_of_ok hstep] at h
      cases hrest : buildSteps (index + 1) rest with
      | error error => rw [hrest] at h; cases h
      | ok components =>
        rw [hrest] at h
        cases h
        exact .cons (StepConfig.builtFrom_of_build hstep) (ih hrest)

theorem buildSteps_succeeds_iff :
    (∃ components, buildSteps index steps = .ok components) ↔ Buildable index steps := by
  induction steps generalizing index with
  | nil => exact iff_of_true ⟨[], rfl⟩ (buildable_nil index)
  | cons c rest ih =>
    rw [buildable_cons, ← ih]
    cases hstep : c.build index with
    | error error =>
      rw [buildSteps_of_error hstep]
      simp
    | ok component =>
      rw [buildSteps_of_ok hstep]
      constructor
      · rintro ⟨components, hok⟩
        cases hrest : buildSteps (index + 1) rest with
        | error error => rw [hrest] at hok; cases hok
        | ok components => exact ⟨⟨component, rfl⟩, components, rfl⟩
      · rintro ⟨-, components, hrest⟩
        exact ⟨component :: components, by rw [hrest]; rfl⟩

/-- The first step that is refused ends the building, whatever comes after it. -/
theorem buildSteps_of_refused {front : List StepConfig} (hfront : Buildable index front)
    (h : c.build (index + front.length) = .error error) (later : List StepConfig) :
    buildSteps index (front ++ c :: later) = .error error := by
  induction front generalizing index with
  | nil => exact buildSteps_of_error h later
  | cons first front ih =>
    obtain ⟨⟨component, hfirst⟩, hrest⟩ := buildable_cons.mp hfront
    rw [List.length_cons, Nat.add_comm front.length, ← Nat.add_assoc] at h
    rw [List.cons_append, buildSteps_of_ok hfirst, ih hrest h]
    rfl

/-- Steps that cannot all be built have a first one that is refused. -/
theorem exists_refused (h : ¬ Buildable index steps) :
    ∃ front c later error, steps = front ++ c :: later ∧ Buildable index front ∧
      c.build (index + front.length) = .error error := by
  induction steps generalizing index with
  | nil => exact absurd (buildable_nil index) h
  | cons c rest ih =>
    cases hstep : c.build index with
    | error error => exact ⟨[], c, rest, error, rfl, buildable_nil index, hstep⟩
    | ok component =>
      have hrest : ¬ Buildable (index + 1) rest := fun hrest =>
        h (buildable_cons.mpr ⟨⟨component, hstep⟩, hrest⟩)
      obtain ⟨front, refused, later, error, rfl, hfront, herror⟩ := ih hrest
      refine ⟨c :: front, refused, later, error, rfl,
        buildable_cons.mpr ⟨⟨component, hstep⟩, hfront⟩, ?_⟩
      rw [List.length_cons, Nat.add_comm front.length, ← Nat.add_assoc]
      exact herror

end

/-! ## The whole pipeline -/

variable {c : PipelineConfig} {w : World}

/-- A pipeline with a refused step fails with its error and does nothing else. -/
theorem build_of_refused {error : ConfigError} (h : buildSteps 0 c.steps = .error error)
    (w : World) : c.build w = ⟨.error error, [], w⟩ := by
  rw [build, h]
  rfl

variable {components : List Component} {events : List Event} {fs : Files}

/-- The evaluator of an engine built in a world: its memory gets a number of its own. -/
def evaluatorIn (c : PipelineConfig) (w : World) : Evaluator :=
  .make c.evaluator.name c.evaluator.logLevel c.evaluator.fastExit w.memories.fresh

theorem create_of_open {store : Store}
    (hopen : (c.evaluator.memory.getD .default).create w.files = ⟨.ok store, events, fs⟩) :
    c.evaluator.create w =
      ⟨.ok (c.evaluatorIn w), events, w.withMemory w.memories.fresh (store, fs)⟩ := by
  rw [EvaluatorConfig.create, Effect.bind_of_ok (World.onFiles_of_run hopen)]
  exact congrArg (Run.mk _ · _) (List.append_nil events)

theorem create_of_unopened {cause : MemoryError}
    (hopen : (c.evaluator.memory.getD .default).create w.files = ⟨.error cause, events, fs⟩) :
    c.evaluator.create w = ⟨.error cause, events, { w with files := fs }⟩ := by
  rw [EvaluatorConfig.create, Effect.bind_of_error (World.onFiles_of_run hopen)]

/-- Once all steps are built, the evaluator is made. -/
theorem build_apply (h : buildSteps 0 c.steps = .ok components) (w : World) :
    c.build w = (c.evaluator.create.mapError ConfigError.memory >>= fun evaluator =>
      pure ⟨evaluator, .schema Component.defaultSchemaName components⟩) w := by
  rw [build, h]
  rfl

theorem build_of_open (h : buildSteps 0 c.steps = .ok components) {store : Store}
    (hopen : (c.evaluator.memory.getD .default).create w.files = ⟨.ok store, events, fs⟩) :
    c.build w = ⟨.ok ⟨c.evaluatorIn w, .schema Component.defaultSchemaName components⟩, events,
      w.withMemory w.memories.fresh (store, fs)⟩ := by
  rw [build_apply h, Effect.bind_of_ok (Effect.mapError_apply (create_of_open hopen) _)]
  exact congrArg (Run.mk _ · _) (List.append_nil events)

theorem build_of_unopened (h : buildSteps 0 c.steps = .ok components) {cause : MemoryError}
    (hopen : (c.evaluator.memory.getD .default).create w.files = ⟨.error cause, events, fs⟩) :
    c.build w = ⟨.error (.memory cause), events, { w with files := fs }⟩ := by
  rw [build_apply h, Effect.bind_of_error (Effect.mapError_apply (create_of_unopened hopen) _)]

/-- The step at an index is the first one that cannot be built. -/
def FirstRefused (steps : List StepConfig) (index : Nat) (error : ConfigError) : Prop :=
  ∃ front step later, steps = front ++ step :: later ∧ front.length = index ∧
    Buildable 0 front ∧ step.build index = .error error

/-- Its error says why it is refused. -/
theorem FirstRefused.refused {steps : List StepConfig} {index : Nat} {error : ConfigError}
    (h : FirstRefused steps index error) :
    ∃ step, steps[index]? = some step ∧ ∀ reason, step.Refused index reason ↔ reason = error := by
  obtain ⟨front, step, later, rfl, rfl, -, herror⟩ := h
  refine ⟨step, ?_, fun reason => ?_⟩
  · rw [List.getElem?_append_right (Nat.le_refl _), Nat.sub_self]
    rfl
  · rw [← StepConfig.build_eq_error_iff, herror, Except.error.injEq]
    exact eq_comm

/-- The steps up to the first that is refused decide what building ends with. -/
theorem FirstRefused.buildSteps_eq {steps steps' : List StepConfig} {index : Nat}
    {error : ConfigError} (h : FirstRefused steps index error)
    (hsame : steps'.take (index + 1) = steps.take (index + 1)) :
    buildSteps 0 steps' = .error error := by
  obtain ⟨front, step, later, rfl, rfl, hfront, herror⟩ := h
  have htaken : steps'.take (front.length + 1) = front ++ [step] := by
    rw [hsame, List.take_length_add_append]
    rfl
  have hsplit : steps' = front ++ step :: steps'.drop (front.length + 1) := by
    rw [List.append_cons, ← htaken, List.take_append_drop]
  rw [hsplit]
  refine buildSteps_of_refused hfront ?_ _
  rwa [Nat.zero_add]

/-- The engine is the one that a configuration describes, with the memory that was opened for it. -/
structure Describes (c : PipelineConfig) (store : Store) (engine : Engine) (w : World) : Prop where
  name : engine.evaluator.name = c.evaluator.name
  logger : engine.evaluator.logger = ⟨c.evaluator.name, c.evaluator.logLevel⟩
  fastExit : engine.evaluator.fastExit = c.evaluator.fastExit
  memory : w.memory engine.evaluator.memory = store
  /-- One component for each step, in their order. -/
  steps : ∃ components, engine.body = .schema Component.defaultSchemaName components ∧
    List.Forall₂ BuiltFrom c.steps.zipIdx components

/-- What was built is what the configuration describes. -/
theorem describes_of_build {engine : Engine} (h : (c.build w).result = .ok engine) :
    Buildable 0 c.steps ∧ ∃ store,
      ((c.evaluator.memory.getD .default).create w.files).result = .ok store ∧
      c.Describes store engine (c.build w).state := by
  cases hsteps : buildSteps 0 c.steps with
  | error error => rw [build_of_refused hsteps] at h; cases h
  | ok components =>
    refine ⟨buildSteps_succeeds_iff.mp ⟨components, hsteps⟩, ?_⟩
    cases hopen : (c.evaluator.memory.getD .default).create w.files with
    | mk result events fs =>
      cases result with
      | error cause => rw [build_of_unopened hsteps hopen] at h; cases h
      | ok store =>
        rw [build_of_open hsteps hopen] at h ⊢
        cases h
        exact ⟨store, rfl,
          { name := rfl
            logger := rfl
            fastExit := rfl
            memory := by rw [World.memory_withMemory]; exact if_pos rfl
            steps := ⟨components, rfl, forall₂_of_buildSteps hsteps⟩ }⟩

theorem build_succeeds_iff :
    (∃ engine, (c.build w).result = .ok engine) ↔ Buildable 0 c.steps ∧
      ∃ store, ((c.evaluator.memory.getD .default).create w.files).result = .ok store := by
  constructor
  · rintro ⟨engine, h⟩
    obtain ⟨hbuildable, store, hopen, -⟩ := describes_of_build h
    exact ⟨hbuildable, store, hopen⟩
  · rintro ⟨hbuildable, store, hopen⟩
    obtain ⟨components, hsteps⟩ := buildSteps_succeeds_iff.mpr hbuildable
    rw [build_of_open hsteps (Run.eq_of_result hopen)]
    exact ⟨_, rfl⟩

end PipelineConfig

open PipelineConfig

/-- A pipeline is built when each of its steps is and the memory that it is configured with opens.
Where a step cannot be built there is a first one, and its error is the answer, whatever steps come
after it and whatever the settings of the evaluator and its memory are; the world is as it was, and
so no directory has been made.  The error says the first of the reasons for which a step is refused.

What is built has a component for each step, in order, under the name of the step or else that of
its built-in. -/
theorem building_is_all_or_nothing (c : PipelineConfig) (w : World) :
    ((∃ engine, (c.build w).result = .ok engine) ↔ Buildable 0 c.steps ∧
      ∃ store, ((c.evaluator.memory.getD .default).create w.files).result = .ok store) ∧
    (¬ Buildable 0 c.steps → ∃ index error, FirstRefused c.steps index error) ∧
    (∀ index error, FirstRefused c.steps index error →
      (∃ step, c.steps[index]? = some step ∧
        ∀ reason, step.Refused index reason ↔ reason = error) ∧
      ∀ (c' : PipelineConfig) w', c'.steps.take (index + 1) = c.steps.take (index + 1) →
        c'.build w' = ⟨.error error, [], w'⟩) ∧
    (∀ cause, Buildable 0 c.steps →
      ((c.evaluator.memory.getD .default).create w.files).result = .error cause →
      (c.build w).result = .error (.memory cause)) ∧
    ∀ engine, (c.build w).result = .ok engine → ∃ store,
      ((c.evaluator.memory.getD .default).create w.files).result = .ok store ∧
      c.Describes store engine (c.build w).state := by
  refine ⟨build_succeeds_iff, fun h => ?_, fun index error h => ⟨h.refused, ?_⟩, ?_, ?_⟩
  · obtain ⟨front, step, later, error, hsplit, hfront, herror⟩ := exists_refused h
    rw [Nat.zero_add] at herror
    exact ⟨front.length, error, front, step, later, hsplit, rfl, hfront, herror⟩
  · intro c' w' hsame
    exact build_of_refused (h.buildSteps_eq hsame) w'
  · intro cause hbuildable hopen
    obtain ⟨components, hsteps⟩ := buildSteps_succeeds_iff.mpr hbuildable
    rw [build_of_unopened hsteps (Run.eq_of_result hopen)]
  · intro engine h
    exact (describes_of_build h).2

/-- A step with an action and options. -/
def plainStep (action : String) (options : Record) : StepConfig :=
  { StepConfig.blank with action := action, options := options }

/-- Two steps, the second under a name of its own. -/
def soundSteps : List StepConfig :=
  [plainStep "flush" ∅,
   { plainStep "nest_to_key" ((∅ : Record).insert "key" (.string "inner")) with
     name := some "Nest" }]

/-- A step that can be built, one that lacks its second required option and has a fault in the
first, and one that is not listed. -/
def faultySteps : List StepConfig :=
  [plainStep "flush" ∅, plainStep "set_value" ((∅ : Record).insert "key" .null),
   plainStep "summon" ∅]

/-- Steps with a memory in files. -/
def filedConfig (steps : List StepConfig) : PipelineConfig where
  evaluator := { EvaluatorConfig.default with memory := some ⟨some "memory", none⟩ }
  steps := steps

/-- A file stands where the memory would be. -/
def takenWorld : World := { World.empty with files := ⟨[(["memory"], .file "")]⟩ }

theorem faultySteps_all_or_nothing :
    (∃ engine store, ((filedConfig soundSteps).build World.empty).result = .ok engine ∧
      (filedConfig soundSteps).Describes store engine
        ((filedConfig soundSteps).build World.empty).state) ∧
    ((filedConfig soundSteps).build takenWorld).result =
      .error (.memory (.file "memory" .alreadyExists)) ∧
    ¬ Buildable 0 faultySteps ∧
    FirstRefused faultySteps 1 (.missingOption 1 "set_value" "value") ∧
    (filedConfig (faultySteps.take 2)).build World.empty =
      ⟨.error (.missingOption 1 "set_value" "value"), [], World.empty⟩ := by
  have hsound : Buildable 0 soundSteps := buildSteps_succeeds_iff.mp ⟨_, rfl⟩
  have hflush : Buildable 0 [plainStep "flush" ∅] := buildSteps_succeeds_iff.mp ⟨_, rfl⟩
  have hfirst : FirstRefused faultySteps 1 (.missingOption 1 "set_value" "value") :=
    ⟨[plainStep "flush" ∅], _, [plainStep "summon" ∅], rfl, rfl, hflush, rfl⟩
  obtain ⟨hsucceeds, -, -, -, hdescribes⟩ :=
    building_is_all_or_nothing (filedConfig soundSteps) World.empty
  obtain ⟨engine, hengine⟩ := hsucceeds.mpr ⟨hsound, _, rfl⟩
  obtain ⟨store, -, hstore⟩ := hdescribes engine hengine
  obtain ⟨-, -, -, htaken, -⟩ := building_is_all_or_nothing (filedConfig soundSteps) takenWorld
  obtain ⟨-, -, hrefused, -, -⟩ :=
    building_is_all_or_nothing (filedConfig faultySteps) World.empty
  obtain ⟨-, hsame⟩ := hrefused 1 _ hfirst
  refine ⟨⟨engine, store, hengine, hstore⟩, htaken _ hsound rfl, fun hbuildable => ?_, hfirst,
    hsame _ World.empty rfl⟩
  obtain ⟨components, hok⟩ := buildSteps_succeeds_iff.mpr hbuildable
  cases hok

end Pipeline
