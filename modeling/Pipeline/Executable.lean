import Pipeline.Evaluator
import Pipeline.View

/-!
# Executables

An executable is a unit of work between two declared schemas.  The data must match
the input schema, and what the unit gives must match the output schema; both are
put into the schema's form.  A unit sees the evaluator it runs in.
-/

namespace Pipeline

/-- What a mapping must match: the mapping in the schema's form, or why it does
not match. -/
structure DataSchema where
  name : String
  check : Record → Except String Record

/-- Put a mapping into the form of a schema. -/
def DataSchema.apply (s : DataSchema) (data : Record) : Except ExecutionError Record :=
  (s.check data).mapError (.validation s.name)

/-- A unit of work between two schemas. -/
structure Executable where
  name : String
  replace : Replacing
  input : DataSchema
  output : DataSchema
  invoke : Record → Evaluator → Act Record

namespace Executable

/-- Check the input, do the work, and check the output.  A failure gets the name of
the executable. -/
def execute (x : Executable) (data : Record) (e : Evaluator) : Act Record :=
  Effect.mapError (.executable x.name) do
    let input ← Effect.ofExcept (x.input.apply data)
    let output ← x.invoke input e
    Effect.ofExcept (x.output.apply output)

end Executable

end Pipeline
