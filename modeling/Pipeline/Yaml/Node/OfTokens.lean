import Pipeline.Yaml.Node

/-!
# From tokens to nodes

The tokens of a text make at most one document.  A value or key that is left out is
an empty scalar.  An anchor gets as its number how many names are in use, and an
alias the number that its name has at that point.
-/

namespace Pipeline.Yaml

/-- What is left of the tokens, and the names in use. -/
structure Reader where
  tokens : List Token
  /-- What tag handles stand for. -/
  handles : List (String × Tag)
  /-- The number of each anchor. -/
  anchors : List (String × Nat)

/-- A reader of tokens. -/
abbrev Reading (α : Type) := StateT Reader Option α

namespace Reading

/-- The next token, which stays. -/
def peek : Reading (Option Token) := do pure (← get).tokens.head?

/-- Pass the next token. -/
def pass : Reading Unit := modify fun r => { r with tokens := r.tokens.tail }

/-- Whether the next token is a given one. -/
def at? (t : Token) : Reading Bool := do pure ((← peek) = some t)

/-- Whether the next token is one of some. -/
def among (ts : List Token) : Reading Bool := do
  let next ← peek
  pure (ts.any fun t => next = some t)

/-- Pass the next token if it is a given one. -/
def pass? (t : Token) : Reading Bool := do
  if ← at? t then
    pass
    pure true
  else pure false

/-- Pass a given token. -/
def expect (t : Token) : Reading Unit := do
  if ← pass? t then pure () else failure

/-! ## Anchors and tags -/

/-- Give an anchor its number. -/
def define (name : String) : Reading Nat := do
  let r ← get
  let id := r.anchors.length
  set { r with anchors := (name, id) :: r.anchors.filter fun a => a.1 ≠ name }
  pure id

/-- The number of an alias. -/
def resolve (name : String) : Reading Nat := do
  match (← get).anchors.lookup name with
  | some id => pure id
  | none => failure

/-- The tag of a handle and a suffix. -/
def expand (handle : String) (suffix : Tag) : Reading Tag := do
  if handle = "" then pure suffix
  else
    match (← get).handles.lookup handle with
    | some start => pure (start ++ suffix)
    | none => failure

/-- Read an anchor, if one is here. -/
def anchor? : Reading (Option String) := do
  match ← peek with
  | some (.anchor name) =>
    pass
    pure (some name)
  | _ => pure none

/-- Read a tag, if one is here. -/
def tag? : Reading (Option (String × Tag)) := do
  match ← peek with
  | some (.tag handle suffix) =>
    pass
    pure (some (handle, suffix))
  | _ => pure none

/-- Read an anchor and a tag, in any order. -/
def properties : Reading (Option String × Option Tag) := do
  let first ← anchor?
  let tag ← tag?
  let anchor ← match first with
    | some name => pure (some name)
    | none => if tag.isSome then anchor? else pure none
  match tag with
  | none => pure (anchor, none)
  | some (handle, suffix) => pure (anchor, some (← expand handle suffix))

/-! ## Nodes -/

mutual

/-- Read a node.  Block collections are read in a block only, and a sequence without
an indentation of its own only where that is said. -/
def node : (fuel : Nat) → (block bare : Bool) → Reading Node
  | 0, _, _ => failure
  | fuel + 1, block, bare => do
    match ← peek with
    | some (.alias name) =>
      pass
      pure (.alias (← resolve name))
    | _ =>
      let (anchor, tag) ← properties
      let number : Reading (Option Nat) :=
        match anchor with
        | some name => some <$> define name
        | none => pure none
      match ← peek with
      | some (.scalar style text) =>
        pass
        pure (.scalar (← number) tag style text)
      | some .flowSequence =>
        pass
        let id ← number
        pure (.sequence id tag (← flowItems fuel true))
      | some .flowMapping =>
        pass
        let id ← number
        pure (.mapping id tag (← flowEntries fuel true))
      | t =>
        if bare ∧ t = some .blockEntry then
          let id ← number
          pure (.sequence id tag (← bareItems fuel))
        else if block ∧ t = some .blockSequence then
          pass
          let id ← number
          pure (.sequence id tag (← blockItems fuel))
        else if block ∧ t = some .blockMapping then
          pass
          let id ← number
          pure (.mapping id tag (← blockEntries fuel))
        else if anchor.isSome ∨ tag.isSome then pure (.scalar (← number) tag .plain "")
        else failure

/-- Read a node, or nothing before one of some tokens. -/
def nodeUnless : (fuel : Nat) → (block bare : Bool) → List Token → Reading Node
  | 0, _, _, _ => failure
  | fuel + 1, block, bare, ends => do
    if ← among ends then pure .empty else node fuel block bare

/-- Read the items of a block sequence. -/
def blockItems : (fuel : Nat) → Reading (List Node)
  | 0 => failure
  | fuel + 1 => do
    if ← pass? .blockEntry then
      let item ← nodeUnless fuel true false [.blockEntry, .blockEnd]
      let items ← blockItems fuel
      pure (item :: items)
    else
      expect .blockEnd
      pure []

/-- Read the items of a sequence without an indentation of its own. -/
def bareItems : (fuel : Nat) → Reading (List Node)
  | 0 => failure
  | fuel + 1 => do
    if ← pass? .blockEntry then
      let item ← nodeUnless fuel true false [.blockEntry, .key, .value, .blockEnd]
      let items ← bareItems fuel
      pure (item :: items)
    else pure []

/-- Read the entries of a block mapping. -/
def blockEntries : (fuel : Nat) → Reading (List (Node × Node))
  | 0 => failure
  | fuel + 1 => do
    if ← pass? .key then
      let key ← nodeUnless fuel true true [.key, .value, .blockEnd]
      let value ←
        if ← pass? .value then nodeUnless fuel true true [.key, .value, .blockEnd]
        else pure .empty
      let entries ← blockEntries fuel
      pure ((key, value) :: entries)
    else
      expect .blockEnd
      pure []

/-- Read the items of a sequence in brackets, from the first one or from the comma
before one. -/
def flowItems : (fuel : Nat) → (first : Bool) → Reading (List Node)
  | 0, _ => failure
  | fuel + 1, first => do
    if ← pass? .flowSequenceEnd then pure []
    else
      if !first then expect .flowEntry
      if ← pass? .key then
        let item ← flowPair fuel
        let items ← flowItems fuel false
        pure (item :: items)
      else if ← pass? .flowSequenceEnd then pure []
      else
        let item ← node fuel false false
        let items ← flowItems fuel false
        pure (item :: items)

/-- Read a mapping of one entry in brackets, after the mark of its key.  Where the
key is left out, the token in its place is passed. -/
def flowPair : (fuel : Nat) → Reading Node
  | 0 => failure
  | fuel + 1 => do
    let key ←
      if ← among [.value, .flowEntry, .flowSequenceEnd] then do
        pass
        pure .empty
      else node fuel false false
    let value ←
      if ← pass? .value then nodeUnless fuel false false [.flowEntry, .flowSequenceEnd]
      else pure .empty
    pure (.mapping none none [(key, value)])

/-- Read the entries of a mapping in braces, from the first one or from the comma
before one. -/
def flowEntries : (fuel : Nat) → (first : Bool) → Reading (List (Node × Node))
  | 0, _ => failure
  | fuel + 1, first => do
    if ← pass? .flowMappingEnd then pure []
    else
      if !first then expect .flowEntry
      if ← pass? .key then
        let key ← nodeUnless fuel false false [.value, .flowEntry, .flowMappingEnd]
        let value ←
          if ← pass? .value then nodeUnless fuel false false [.flowEntry, .flowMappingEnd]
          else pure .empty
        let entries ← flowEntries fuel false
        pure ((key, value) :: entries)
      else if ← pass? .flowMappingEnd then pure []
      else
        let key ← node fuel false false
        let entries ← flowEntries fuel false
        pure ((key, .empty) :: entries)

end

/-! ## Documents -/

/-- Whether a token belongs to the head of a document. -/
def isHead : Token → Bool
  | .version .. | .handle .. | .documentStart => true
  | _ => false

/-- Read directives: at most one version, which is 1.1 or 1.2, and each handle once. -/
def directives : (fuel : Nat) → (versioned : Bool) → Reading Unit
  | 0, _ => failure
  | fuel + 1, versioned => do
    match ← peek with
    | some (.version major minor) =>
      if versioned ∨ major ≠ 1 ∨ (minor ≠ 1 ∧ minor ≠ 2) then failure
      pass
      directives fuel true
    | some (.handle name start) =>
      let r ← get
      if r.handles.any (·.1 = name) then failure
      set { r with handles := (name, start) :: r.handles }
      pass
      directives fuel versioned
    | _ => pure ()

/-- Use the standard handles too, where the document does not redefine them. -/
def standardHandles : Reading Unit := modify fun r =>
  { r with handles :=
      r.handles ++ [("!", Tag.ofString "!"), ("!!", Tag.ofString "tag:yaml.org,2002:")] }

/-- Pass the marks of a document's end, and nothing else. -/
def finish : Reading Unit := do
  if (← get).tokens.all (· = .documentEnd) then pure () else failure

/-- Read the only document, if there is one. -/
def document (fuel : Nat) : Reading Document := do
  match ← peek with
  | none => pure none
  | some t =>
    if isHead t then
      directives fuel false
      expect .documentStart
      standardHandles
      let root ← match ← peek with
        | none | some .documentEnd => pure Node.empty
        | some t => if isHead t then failure else node fuel true false
      finish
      pure (some root)
    else
      standardHandles
      let root ← node fuel true false
      finish
      pure (some root)

end Reading

/-- The document of some tokens. -/
def Document.ofTokens? (tokens : Array Token) : Option Document :=
  ((Reading.document (4 * tokens.size + 4)).run ⟨tokens.toList, [], []⟩).map (·.1)

end Pipeline.Yaml
