import Pipeline.Action
import Pipeline.Executable

/-!
# Components

A component is a unit of work that a pipeline is built from: a leaf, a sequence of
steps, a control construct, a memory operation, or a nested evaluator.  A predicate
is a test of the register; a condition is a predicate that runs a component first.

Components are trees.  What a leaf does is a function, so a statement about all
components is a statement about all leaves.
-/

namespace Pipeline

/-- How storing in memory treats the register. -/
inductive SetInstruction
  /-- The data stay in the register. -/
  | set
  /-- The data leave the register. -/
  | move
  deriving DecidableEq, Repr, Inhabited

namespace SetInstruction

/-- All instructions, in the order of their names in messages. -/
def all : List SetInstruction := [.set, .move]

/-- The name in settings. -/
def name : SetInstruction → String
  | .set => "set"
  | .move => "move"

/-- The instruction with a name. -/
def ofName? (s : String) : Option SetInstruction := all.find? fun i => i.name = s

end SetInstruction

/-- How reading from memory treats the memory. -/
inductive GetInstruction
  /-- The entries stay in memory. -/
  | get
  /-- The entries leave the memory. -/
  | pop
  deriving DecidableEq, Repr, Inhabited

namespace GetInstruction

/-- All instructions, in the order of their names in messages. -/
def all : List GetInstruction := [.get, .pop]

/-- The name in settings. -/
def name : GetInstruction → String
  | .get => "get"
  | .pop => "pop"

/-- The instruction with a name. -/
def ofName? (s : String) : Option GetInstruction := all.find? fun i => i.name = s

end GetInstruction

/-- The line before and after a logged message. -/
def rule : String := "----------------------------------------"

/-- What a log step writes, and where. -/
structure LogSpec where
  level : Level
  /-- The logger; the evaluator's own one when there is none. -/
  logger : Option Logger
  message : String
  opening : String
  closing : String
  includeInput : Bool
  deriving DecidableEq, Repr

namespace LogSpec

/-- A framed line that shows the register. -/
def make (level : Level) : LogSpec := ⟨level, none, "", rule, rule, true⟩

/-- The text for a register. -/
def text (s : LogSpec) (register : Record) : String :=
  s.opening ++ "\n" ++ s.message ++ "\n" ++
    (if s.includeInput then showRegister register ++ "\n" else "") ++ s.closing

end LogSpec

mutual

/-- A unit of work that a pipeline is built from. -/
inductive Component
  /-- An action on a view of the register. -/
  | action (name : String) (view : View) (action : Action)
  /-- An executable on a view of the register. -/
  | executable (name : String) (view : View) (executable : Executable)
  /-- Steps one after another. -/
  | schema (name : String) (steps : List Component)
  /-- A body repeated while a condition holds and a bound is not reached. -/
  | loop (name : String) (body : Component) (condition : Option Predicate) (bound : Option Nat)
  /-- A body run on each element of a list. -/
  | forEach (name : String) (body : Component) (getKey setKey : String)
  /-- The elements of a list for which a predicate holds. -/
  | filter (name : String) (condition : Predicate) (getKey setKey : String)
  /-- The first branch whose condition holds, or several. -/
  | switch (name : String) (branches : List Branch)
  /-- The signal that ends the nearest loop. -/
  | exit (name : String)
  /-- A line for a logger. -/
  | log (name : String) (spec : LogSpec)
  /-- The value at a key, or the whole register, into memory. -/
  | setMemory (name key : String) (getKey : Option String) (instruction : SetInstruction)
  /-- Entries of memory into the register. -/
  | getMemory (name : String) (identifiers : List Identifier) (default : Record)
      (instruction : GetInstruction)
  /-- Entries out of memory: the listed ones, or all when none are listed. -/
  | deleteMemory (name : String) (keys : List String)
  /-- A component in an evaluator of its own. -/
  | evaluator (context : Evaluator) (body : Component)

/-- A body with an optional condition. -/
inductive Branch
  | mk (name : String) (condition : Option Predicate) (body : Component) (exits : Bool)

/-- A test of the register. -/
inductive Predicate
  /-- A test of one's own. -/
  | test (check : Record → Evaluator → Act Bool)
  /-- The opposite. -/
  | not (p : Predicate)
  /-- All of some predicates, up to the first that does not hold. -/
  | all (ps : List Predicate)
  /-- A predicate on the result of a component that runs on a copy of the register,
  into which entries of memory were copied first. -/
  | condition (name : String) (validator : Predicate) (body : Component)
      (state : Option (List Identifier))

end

namespace Branch

/-- The display name of a branch. -/
def name : Branch → String
  | .mk name .. => name

/-- The condition of a branch. -/
def condition : Branch → Option Predicate
  | .mk _ condition .. => condition

/-- The body of a branch. -/
def body : Branch → Component
  | .mk _ _ body _ => body

/-- Whether a switch ends once the branch was taken. -/
def exits : Branch → Bool
  | .mk _ _ _ exits => exits

end Branch

namespace Component

/-- The name of a schema that was given none. -/
def defaultSchemaName : String := "ExecutionSchema"

/-- The display name. -/
def name : Component → String
  | .action name .. => name
  | .executable name .. => name
  | .schema name .. => name
  | .loop name .. => name
  | .forEach name .. => name
  | .filter name .. => name
  | .switch name .. => name
  | .exit name => name
  | .log name .. => name
  | .setMemory name .. => name
  | .getMemory name .. => name
  | .deleteMemory name .. => name
  | .evaluator context _ => context.name

/-- The component under another display name. -/
def rename (new : String) : Component → Component
  | .action _ view a => .action new view a
  | .executable _ view x => .executable new view x
  | .schema _ steps => .schema new steps
  | .loop _ body condition bound => .loop new body condition bound
  | .forEach _ body getKey setKey => .forEach new body getKey setKey
  | .filter _ condition getKey setKey => .filter new condition getKey setKey
  | .switch _ branches => .switch new branches
  | .exit _ => .exit new
  | .log _ spec => .log new spec
  | .setMemory _ key getKey instruction => .setMemory new key getKey instruction
  | .getMemory _ identifiers default instruction => .getMemory new identifiers default instruction
  | .deleteMemory _ keys => .deleteMemory new keys
  | .evaluator context body => .evaluator (context.rename new) body

/-- An action on the whole register, under the action's own name. -/
def ofAction (a : Action) : Component := .action a.name (.root a.defaultKey a.replace) a

/-- An executable on the whole register, under its own name. -/
def ofExecutable (x : Executable) : Component :=
  .executable x.name (.root defaultOutputKey x.replace) x

/-! ## Composition -/

/-- The steps a component contributes to a sequence: those of a schema, else itself. -/
def steps : Component → List Component
  | .schema _ steps => steps
  | c => [c]

/-- The name of the sequence that starts with a component. -/
def sequenceName : Component → String
  | .schema name _ => name
  | _ => defaultSchemaName

/-- The component followed by another, as one flat schema. -/
def andThen (first second : Component) : Component :=
  .schema first.sequenceName (first.steps ++ second.steps)

/-- Whether a loop has a condition or a bound. -/
def bounded (condition : Option Predicate) (bound : Option Nat) : Bool :=
  condition.isSome || bound.isSome

/-- The events of making a loop: a warning when nothing bounds it. -/
def loopWarning (name : String) (condition : Option Predicate) (bound : Option Nat) : List Event :=
  if bounded condition bound then [] else (Message.unboundedLoop name).broadcast

end Component

end Pipeline
