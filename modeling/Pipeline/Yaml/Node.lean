import Pipeline.Yaml.Token

/-!
# Nodes of YAML

A document is a tree whose leaves are scalars and aliases.  An anchored node has a
number, by which aliases refer to it.  Where a number was given twice, the node that
starts later has it, so that an alias may stand for a node that contains it.
-/

namespace Pipeline.Yaml

/-- A node. -/
inductive Node
  | alias (id : Nat)
  | scalar (id : Option Nat) (tag : Option Tag) (style : Style) (text : String)
  | sequence (id : Option Nat) (tag : Option Tag) (items : List Node)
  | mapping (id : Option Nat) (tag : Option Tag) (entries : List (Node × Node))
  deriving Inhabited

/-- A document: its root, if it has one. -/
abbrev Document := Option Node

namespace Node

/-- A scalar that is not there. -/
def empty : Node := .scalar none none .plain ""

/-- The anchored node itself, with its number. -/
def entry (id : Option Nat) (n : Node) : List (Nat × Node) :=
  match id with
  | some id => [(id, n)]
  | none => []

mutual

/-- How many starts and ends of nodes there are. -/
def size : Node → Nat
  | .alias _ | .scalar .. => 1
  | .sequence _ _ items => sizeItems items + 2
  | .mapping _ _ entries => sizeEntries entries + 2

/-- How many starts and ends of nodes there are in a list. -/
def sizeItems : List Node → Nat
  | [] => 0
  | n :: rest => n.size + sizeItems rest

/-- How many starts and ends of nodes there are in the entries of a mapping. -/
def sizeEntries : List (Node × Node) → Nat
  | [] => 0
  | (k, v) :: rest => k.size + v.size + sizeEntries rest

end

mutual

/-- The anchored nodes in the order of their starts. -/
def anchored : Node → List (Nat × Node)
  | .alias _ => []
  | .scalar id tag style text => entry id (.scalar id tag style text)
  | .sequence id tag items => entry id (.sequence id tag items) ++ anchoredItems items
  | .mapping id tag entries => entry id (.mapping id tag entries) ++ anchoredEntries entries

/-- The anchored nodes in a list. -/
def anchoredItems : List Node → List (Nat × Node)
  | [] => []
  | n :: rest => n.anchored ++ anchoredItems rest

/-- The anchored nodes in the entries of a mapping. -/
def anchoredEntries : List (Node × Node) → List (Nat × Node)
  | [] => []
  | (k, v) :: rest => k.anchored ++ v.anchored ++ anchoredEntries rest

end

end Node

end Pipeline.Yaml
