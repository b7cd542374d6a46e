import Pipeline.Component
import Pipeline.Text.Quoted

/-!
# Descriptions of components

How a view, a schema and a nested evaluator are shown in messages about them.
-/

namespace Pipeline

open Text (quoted)

/-- A view as a value, with the key its outputs land at. -/
def View.toValue (view : View) : Value :=
  showFields [("get_key", showText view.getKey), ("set_key", showText view.setKey),
    ("default_key", .string view.defaultKey), ("replace", .string view.replace.name),
    ("target_key", .string view.targetKey)]

/-- The text of a schema: its name and the names of its steps. -/
def describeSchema (name : String) (steps : List Component) : String :=
  "ExecutionSchema \x7b name: " ++ quoted name ++ ", program: [" ++
    ", ".intercalate (steps.map fun c => quoted c.name) ++ "] \x7d"

/-- The text of an evaluator around a component. -/
def Evaluator.describe (e : Evaluator) (body : Component) : String :=
  "Evaluator \x7b name: " ++ quoted e.name ++ ", logger: Logger \x7b name: " ++
    quoted e.logger.name ++ ", level: " ++ e.logger.threshold.label ++ " \x7d, fast_exit: " ++
    toString e.fastExit ++ ", schema: " ++ quoted body.name ++ " \x7d"

end Pipeline
