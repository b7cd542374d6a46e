import Pipeline.Component.Compose
import Pipeline.Interpreter

/-!
# Composition is flat

What a component contributes to a sequence is a list of steps and, if it comes first, a name
(`Contributes`).  A row of components can be composed two by two in many ways, one for each
`Grouping`.  All of them give the schema of the steps in a row under the name of the first
component (`Grouping.build_pair`), so that how the components are grouped makes no difference
(`Grouping.build_eq`).  Chains from the left and from the right are two such groupings.
-/

namespace Pipeline

/-! ## What a component contributes -/

/-- The name that a component gives to a sequence which it starts, and the steps that it
contributes to any sequence.  A schema is dissolved into its steps. -/
inductive Contributes : Component → String → List Component → Prop
  | schema (name : String) (steps : List Component) :
      Contributes (.schema name steps) name steps
  | single {c : Component} : (∀ name steps, c ≠ .schema name steps) →
      Contributes c Component.defaultSchemaName [c]

namespace Contributes

variable {a b c : Component} {name other : String} {as bs : List Component}

/-- Every component contributes in exactly one way. -/
theorem iff_eq : Contributes c name as ↔ c.sequenceName = name ∧ c.steps = as := by
  constructor
  · intro h
    cases h with
    | schema => exact ⟨rfl, rfl⟩
    | single hc =>
      cases c with
      | schema name steps => exact absurd rfl (hc name steps)
      | action | executable | loop | forEach | filter | switch | exit | log | setMemory
      | getMemory | deleteMemory | evaluator => exact ⟨rfl, rfl⟩
  · rintro ⟨rfl, rfl⟩
    cases c with
    | schema name steps => exact .schema name steps
    | action | executable | loop | forEach | filter | switch | exit | log | setMemory | getMemory
    | deleteMemory | evaluator => exact .single nofun

theorem self (c : Component) : Contributes c c.sequenceName c.steps := iff_eq.mpr ⟨rfl, rfl⟩

/-- Two components give the schema of what they contribute. -/
theorem andThen_eq (ha : Contributes a name as) (hb : Contributes b other bs) :
    a.andThen b = .schema name (as ++ bs) := by
  obtain ⟨rfl, rfl⟩ := iff_eq.mp ha
  obtain ⟨_, rfl⟩ := iff_eq.mp hb
  rfl

end Contributes

/-! ## Groupings -/

/-- A way to compose a row of components two by two. -/
inductive Grouping
  | part (c : Component)
  | pair (first second : Grouping)

namespace Grouping

/-- The components in a row. -/
def parts : Grouping → List Component
  | part c => [c]
  | pair first second => first.parts ++ second.parts

/-- The component that comes first. -/
def head : Grouping → Component
  | part c => c
  | pair first _ => first.head

/-- The components composed. -/
def build : Grouping → Component
  | part c => c
  | pair first second => first.build.andThen second.build

theorem head?_parts (g : Grouping) : g.parts.head? = some g.head := by
  induction g with
  | part c => rfl
  | pair first second ih => rw [parts, List.head?_append, ih, Option.some_or, head]

theorem parts_ne_nil (g : Grouping) : g.parts ≠ [] := by
  intro hnil
  have hhead := g.head?_parts
  rw [hnil] at hhead
  cases hhead

theorem contributes_build (g : Grouping) :
    Contributes g.build g.head.sequenceName (g.parts.flatMap Component.steps) := by
  induction g with
  | part c =>
    rw [parts, List.flatMap_singleton]
    exact .self c
  | pair first second hfirst hsecond =>
    rw [build, hfirst.andThen_eq hsecond, ← List.flatMap_append]
    exact .schema _ _

/-- Two or more components give the flat schema of their steps, whatever the grouping. -/
theorem build_pair (first second : Grouping) :
    (pair first second).build = .schema first.head.sequenceName
      ((pair first second).parts.flatMap Component.steps) := by
  rw [build, first.contributes_build.andThen_eq second.contributes_build, ← List.flatMap_append,
    parts]

theorem part_ne_pair {c : Component} {first second : Grouping} :
    (part c).parts ≠ (pair first second).parts := by
  intro h
  rcases List.append_eq_singleton_iff.mp h.symm with ⟨hnil, _⟩ | ⟨_, hnil⟩
  · exact first.parts_ne_nil hnil
  · exact second.parts_ne_nil hnil

/-- The same components in a row give the same component. -/
theorem build_eq {g g' : Grouping} (h : g.parts = g'.parts) : g.build = g'.build := by
  cases g with
  | part c =>
    cases g' with
    | part c' => exact List.singleton_inj.mp h
    | pair => exact absurd h part_ne_pair
  | pair first second =>
    cases g' with
    | part c' => exact absurd h.symm part_ne_pair
    | pair first' second' =>
      have hhead : first.head = first'.head := by
        have hparts := congrArg List.head? h
        rw [head?_parts, head?_parts] at hparts
        exact Option.some.inj hparts
      rw [build_pair, build_pair, h, hhead]

/-! ## Chains -/

/-- Each component follows all before it. -/
def leftward (g : Grouping) (rest : List Component) : Grouping :=
  rest.foldl (fun g c => pair g (part c)) g

/-- Each component is followed by all after it. -/
def rightward : Component → List Component → Grouping
  | first, [] => part first
  | first, second :: rest => pair (part first) (rightward second rest)

theorem parts_leftward (g : Grouping) (rest : List Component) :
    (g.leftward rest).parts = g.parts ++ rest := by
  induction rest generalizing g with
  | nil => exact (List.append_nil _).symm
  | cons c rest ih =>
    rw [leftward, List.foldl_cons, ← leftward, ih, parts, parts, ← List.append_cons]

theorem build_leftward (g : Grouping) (rest : List Component) :
    (g.leftward rest).build = g.build.chainLeft rest := by
  induction rest generalizing g with
  | nil => rfl
  | cons c rest ih => exact ih (pair g (part c))

theorem parts_rightward (first : Component) (rest : List Component) :
    (rightward first rest).parts = first :: rest := by
  induction rest generalizing first with
  | nil => rfl
  | cons second rest ih => rw [rightward, parts, ih, parts, List.singleton_append]

theorem build_rightward (first : Component) (rest : List Component) :
    (rightward first rest).build = first.chainRight rest := by
  induction rest generalizing first with
  | nil => rfl
  | cons second rest ih => rw [rightward, build, ih, build, Component.chainRight]

end Grouping

namespace Component

/-- A chain is the same from either end. -/
theorem compose_follow (cs : List Component) :
    compose .followLeft cs = compose .followRight cs := by
  cases cs with
  | nil => rfl
  | cons first rest =>
    have hparts : ((Grouping.part first).leftward rest).parts =
        (Grouping.rightward first rest).parts := by
      rw [Grouping.parts_leftward, Grouping.parts_rightward, Grouping.parts,
        List.singleton_append]
    have hbuild := Grouping.build_eq hparts
    rwa [Grouping.build_leftward, Grouping.build_rightward] at hbuild

/-- A schema takes in what the components of a chain contribute, and keeps its name. -/
theorem chainLeft_schema (name : String) (steps cs : List Component) :
    (Component.schema name steps).chainLeft cs =
      .schema name (steps ++ cs.flatMap Component.steps) := by
  induction cs generalizing steps with
  | nil => rw [List.flatMap_nil, List.append_nil, chainLeft, List.foldl_nil]
  | cons c cs ih =>
    have hc := (Contributes.schema name steps).andThen_eq (.self c)
    rw [chainLeft, List.foldl_cons, ← chainLeft, hc, ih, List.flatMap_cons, List.append_assoc]

/-- Appending is chaining behind a schema without steps. -/
theorem compose_append (cs : List Component) :
    compose .append cs = (Component.schema defaultSchemaName []).chainLeft cs :=
  (chainLeft_schema defaultSchemaName [] cs).symm

end Component

/-- Composing is flat and associative.  For components of any kind, both ways to compose three of
them give the schema of the steps that they contribute, under the name that the first one gives,
and so run in the same way.  An empty schema that follows a schema adds nothing. -/
theorem composition_flat_assoc (a b c : Component) (name other : String)
    (steps : List Component) :
    ∃ first second third as bs cs,
      Contributes a first as ∧ Contributes b second bs ∧ Contributes c third cs ∧
      (a.andThen b).andThen c = .schema first (as ++ bs ++ cs) ∧
      a.andThen (b.andThen c) = .schema first (as ++ bs ++ cs) ∧
      (∀ rounds e register w, ((a.andThen b).andThen c).run rounds e register w =
        (a.andThen (b.andThen c)).run rounds e register w) ∧
      (Component.schema name steps).andThen (.schema other []) = .schema name steps := by
  have hleft : (a.andThen b).andThen c =
      .schema a.sequenceName (a.steps ++ b.steps ++ c.steps) := by
    rw [(Contributes.self a).andThen_eq (.self b),
      (Contributes.schema _ _).andThen_eq (.self c)]
  have hassoc : (a.andThen b).andThen c = a.andThen (b.andThen c) :=
    @Grouping.build_eq (.pair (.pair (.part a) (.part b)) (.part c))
      (.pair (.part a) (.pair (.part b) (.part c))) rfl
  refine ⟨_, _, _, _, _, _, .self a, .self b, .self c, hleft, hassoc.symm.trans hleft, ?_, ?_⟩
  · intro rounds e register w
    rw [hassoc]
  · rw [(Contributes.schema name steps).andThen_eq (.schema other []), List.append_nil]

/-- The schema loses its name behind a component that is none. -/
example :
    ((Component.exit "A").andThen (.schema "B" [.exit "C", .exit "D"])).andThen (.exit "E") =
      .schema "ExecutionSchema" [.exit "A", .exit "C", .exit "D", .exit "E"] := rfl

end Pipeline
