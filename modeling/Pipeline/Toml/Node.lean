import Pipeline.Value

/-!
# TOML documents as trees

A node is a plain value, an array or a table.  A table remembers how it came to be,
because that decides whether later lines may add to it.  A number that is not finite
has no value here.
-/

namespace Pipeline.Toml

/-- How a table came to be. -/
inductive Origin
  /-- By a header of its own, or as the document itself. -/
  | header
  /-- On the way to a table with a header. -/
  | implied
  /-- On the way of a dotted key. -/
  | dotted
  /-- Between braces. -/
  | inline
  deriving DecidableEq, Repr

/-- A part of a document. -/
inductive Node
  | string (s : String)
  | integer (n : Int)
  | float (x : Option Binary64)
  | boolean (b : Bool)
  /-- A date, a time or both, in its standard form. -/
  | moment (text : String)
  | array (xs : List Node)
  /-- The tables that headers with two brackets added one by one. -/
  | tables (ts : List Node)
  | table (origin : Origin) (entries : Ascending Node none)
  deriving Inhabited

/-- The key under which the text of a date or time is found. -/
def momentKey : String := "$__toml_private_datetime"

/-- A date or time as a mapping. -/
def momentRecord (text : String) : Record := (∅ : Record).insert momentKey (.string text)

mutual

/-- The value of a node.  A number that is not finite is null. -/
def Node.toValue : Node → Value
  | .string s => .string s
  | .integer n => .int n
  | .float (some x) => .number (.float x)
  | .float none => .null
  | .boolean b => .bool b
  | .moment text => .mapping (momentRecord text)
  | .array xs => .list (listToValues xs)
  | .tables ts => .list (listToValues ts)
  | .table _ entries => .mapping (entriesToValues entries)

/-- The values of some nodes. -/
def listToValues : List Node → List Value
  | [] => []
  | x :: xs => x.toValue :: listToValues xs

/-- The entries of a table with their values. -/
def entriesToValues : {b : Option String} → Ascending Node b → Ascending Value b
  | _, .nil => .nil
  | _, .cons k v h rest => .cons k v.toValue h (entriesToValues rest)

end

end Pipeline.Toml
