import Pipeline.Decode.Plain
import Pipeline.Yaml.Node.OfTokens
import Pipeline.Yaml.Scalar
import Pipeline.Yaml.Token.Scan

/-!
# Decoding YAML documents

Any scalar may be read as a text.  An empty plain scalar counts as nothing, as an
empty list or as an empty mapping, whichever is asked for.  A tag of the document's
own makes a node the variant of that name, and nothing but a name can be read from
such a node.

Collections nest at most 128 deep.  Aliases may be followed at most a hundred times
as often as the document has nodes.
-/

namespace Pipeline.Yaml

/-- A node inside a number of further levels that may be entered. -/
structure Place where
  node : Node
  depth : Nat

/-- What aliases stand for, and how many may be followed. -/
structure Aliases where
  table : List (Nat × Node)
  limit : Nat

/-- The aliases of a document. -/
def Aliases.ofNode (root : Node) : Aliases := ⟨root.anchored.reverse, 100 * root.size⟩

/-- A decoder; it counts the aliases that were followed. -/
abbrev Decoder (α : Type) := ReaderT Aliases (StateT Nat Decoded) α

namespace Decoder

/-- Give up. -/
def fail {α : Type} (fault : DecodeFault) : Decoder α := fun _ _ => .error fault

/-- A node that is not an alias. -/
def follow (n : Node) : Decoder Node := do
  match n with
  | .alias id =>
    let aliases ← read
    let count := (← get) + 1
    set count
    if aliases.limit < count then fail (.noForm "alias")
    else
      match aliases.table.lookup id with
      | some n => pure n
      | none => fail (.noForm "alias")
  | n => pure n

end Decoder

open Decoder

namespace Node

/-- What a fault says about a node. -/
def found : Node → Found
  | .alias _ => .null
  | .scalar _ _ _ text => .string text
  | .sequence .. => .sequence
  | .mapping .. => .map

/-- The node is of the wrong kind. -/
def unexpected {α : Type} (n : Node) (expected : String) : Decoder α :=
  fail (.invalidType n.found expected)

/-- Whether a node is an empty plain scalar. -/
def isBlank : Node → Bool
  | .scalar _ _ .plain "" => true
  | _ => false

/-- The tag of a node. -/
def tag? : Node → Option Tag
  | .alias _ => none
  | .scalar _ tag _ _ | .sequence _ tag _ | .mapping _ tag _ => tag

end Node

/-! ## Tags -/

/-- The text of a tag. -/
def Tag.text? (t : Tag) : Option String := String.fromUTF8? ⟨t.toArray⟩

/-- The tag of a standard type. -/
def standardTag (name : String) : Tag := Tag.ofString ("tag:yaml.org,2002:" ++ name)

/-- Whether a tag is the document's own. -/
def Tag.isLocal (t : Tag) : Bool := t.head? = some '!'.toNat.toUInt8

/-- The variant that a tag of the document's own names. -/
def variant? (tag : Option Tag) : Option String :=
  match tag with
  | some t => if t.isLocal then (if t.length = 1 then t else t.tail).text? else none
  | none => none

/-! ## Scalars -/

/-- What a plain scalar stands for. -/
def plainValue (text : String) : Decoder Value :=
  if text = "" ∨ isNull text then pure .null
  else
    match bool? text with
    | some b => pure (.bool b)
    | none =>
      match (integer? text.toList).filter isShort with
      | some n =>
        if Number.minInt ≤ n ∧ n ≤ Number.maxInt then pure (.int n)
        else fail (.invalidValue (.string text) "an integer")
      | none =>
        match if isZeroPadded text.toList then none else real? text with
        | some (.finite x) => pure (.number (.float x))
        | some .other => pure .null
        | none => pure (.string text)

/-- What a scalar with the tag of a type stands for. -/
def taggedValue (tag : Tag) (style : Style) (text : String) : Decoder Value :=
  if tag = standardTag "bool" then
    match bool? text with
    | some b => pure (.bool b)
    | none => fail (.invalidValue (.string text) "a boolean")
  else if tag = standardTag "int" then
    match (integer? text.toList).filter isShort with
    | some n =>
      if Number.minInt ≤ n ∧ n ≤ Number.maxInt then pure (.int n)
      else fail (.invalidValue (.string text) "an integer")
    | none => fail (.invalidValue (.string text) "an integer")
  else if tag = standardTag "float" then
    match real? text with
    | some (.finite x) => pure (.number (.float x))
    | some .other => pure .null
    | none => fail (.invalidValue (.string text) "a float")
  else if tag = standardTag "null" then
    if isNull text then pure .null else fail (.invalidValue (.string text) "null")
  else if tag.isLocal ∧ style = .plain then plainValue text
  else pure (.string text)

/-- What a scalar stands for. -/
def scalarValue (tag : Option Tag) (style : Style) (text : String) : Decoder Value :=
  match tag with
  | some t => taggedValue t style text
  | none => if style = .plain then plainValue text else pure (.string text)

/-- The text of a scalar. -/
def decodeText (p : Place) : Decoder String := do
  match ← follow p.node with
  | .scalar _ _ _ text => pure text
  | n => n.unexpected "a string"

/-- A truth value: plain, or a literal with the tag of truth values. -/
def decodeBool (p : Place) : Decoder Bool := do
  match ← follow p.node with
  | n@(.scalar _ tag style text) =>
    if style = .plain ∨ (style = .literal ∧ tag = some (standardTag "bool")) then
      match bool? text with
      | some b => pure b
      | none => n.unexpected "a boolean"
    else n.unexpected "a boolean"
  | n => n.unexpected "a boolean"

/-- The node, unless it stands for nothing. -/
def decodeOptional (p : Place) : Decoder (Option Place) := do
  let n ← follow p.node
  let here : Option Place := some ⟨n, p.depth⟩
  match n with
  | .scalar _ tag .plain text =>
    match tag with
    | some t =>
      if t = standardTag "null" then
        if isNull text then pure none else fail (.invalidValue (.string text) "null")
      else pure here
    | none => pure (if text = "" ∨ isNull text then none else here)
  | _ => pure here

/-- One of some names: a scalar, or a tag on nothing. -/
def decodeChoice (names : List String) (p : Place) : Decoder String := do
  let n ← follow p.node
  let chosen ← match variant? n.tag? with
    | some name =>
      match n with
      | .scalar _ _ .plain text =>
        if text = "" ∨ isNull text then pure name else n.unexpected "unit"
      | n => n.unexpected "unit"
    | none =>
      match n with
      | .scalar _ _ _ text => pure text
      | n => n.unexpected "a tag that starts with an exclamation mark"
  if chosen ∈ names then pure chosen else fail (.unknownVariant chosen names)

/-! ## Collections -/

/-- The nesting goes too deep. -/
def tooDeep {α : Type} : Decoder α := fail (.noForm "nesting")

/-- Any value, inside a number of levels that may be entered. -/
def decodeValue : (depth : Nat) → Node → Decoder Value
  | 0, n => do
    let n ← follow n
    match n with
    | .scalar _ tag style text =>
      if (variant? tag).isSome then n.unexpected "any value" else scalarValue tag style text
    | _ => tooDeep
  | depth + 1, n => do
    let n ← follow n
    if (variant? n.tag?).isSome then n.unexpected "any value"
    else
      match n with
      | .alias _ => n.unexpected "any value"
      | .scalar _ tag style text => scalarValue tag style text
      | .sequence _ _ items => do pure (.list (← items.mapM (decodeValue depth)))
      | .mapping _ _ entries => do
        let entries ← entries.mapM fun (k, v) => do
          let key ← decodeText ⟨k, depth⟩
          let value ← decodeValue depth v
          pure (key, value)
        pure (.mapping (Ascending.ofList entries))

/-- A mapping of any values. -/
def decodeRecord (p : Place) : Decoder Record := do
  let n ← follow p.node
  match n, p.depth with
  | .mapping _ _ entries, depth + 1 =>
    let entries ← entries.mapM fun (k, v) => do
      let key ← decodeText ⟨k, depth⟩
      let value ← decodeValue depth v
      pure (key, value)
    pure (Ascending.ofList entries)
  | .mapping .., 0 => tooDeep
  | n, _ => if n.isBlank then pure ∅ else n.unexpected "a map"

/-- The elements of a list. -/
def decodeElements (p : Place) : Decoder (List Place) := do
  let n ← follow p.node
  match n, p.depth with
  | .sequence _ _ items, depth + 1 => pure (items.map fun n => ⟨n, depth⟩)
  | .sequence .., 0 => tooDeep
  | n, _ => if n.isBlank then pure [] else n.unexpected "a sequence"

/-- The parts of a structure: its fields have names. -/
def decodeFields (name : String) (p : Place) : Decoder (Fields Place) := do
  let n ← follow p.node
  match n, p.depth with
  | .mapping _ _ entries, depth + 1 =>
    let fields ← entries.mapM fun (k, v) => do
      let key ← decodeText ⟨k, depth⟩
      pure (key, (⟨v, depth⟩ : Place))
    pure (.named fields)
  | .mapping .., 0 => tooDeep
  | n, _ => if n.isBlank then pure (.named []) else n.unexpected ("struct " ++ name)

/-- How nodes are decoded. -/
def format : Format Decoder Place where
  lenient := false
  fail := fail
  text := decodeText
  path := decodeText
  boolean := decodeBool
  choice := decodeChoice
  optional := decodeOptional
  value p := decodeValue p.depth p.node
  record := decodeRecord
  elements := decodeElements
  fields := decodeFields

/-- How deep collections may nest. -/
def maxDepth : Nat := 128

/-- Decode the document of a text; one that is not there counts as an empty scalar. -/
def decodeText? {α : Type} (decode : Place → Decoder α) (text : String) : Option α := do
  let tokens ← Token.scan? text
  let document ← Document.ofTokens? tokens
  let root := document.getD .empty
  match decode ⟨root, maxDepth⟩ (Aliases.ofNode root) 0 with
  | .ok (a, _) => some a
  | .error _ => none

end Pipeline.Yaml
