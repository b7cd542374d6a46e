import Pipeline.Toml.Statement

/-!
# Documents of TOML

The statements of a document build one tree.  A header opens a table once: the table
may have been implied by the header of a table below it, but not opened or made in
another way before.
-/

namespace Pipeline.Toml

/-- Act on the table that names lead to; a table that is missing on the way is
implied.  The way does not lead into a plain value or a table between braces. -/
def within (f : Dict Node → Option (Dict Node)) : List String → Dict Node → Option (Dict Node)
  | [], entries => f entries
  | name :: path, entries => do
    let node ← match entries.get? name with
      | none => do some (.table .implied (← within f path ∅))
      | some (.table origin inner) =>
        if origin = .inline then none else do some (.table origin (← within f path inner))
      | some (.tables ts) => onLast (fun _ => within f path) ts
      | some _ => none
    some (entries.insert name node)

/-- Open a table by its header. -/
def openTable (key : String) (entries : Dict Node) : Option (Dict Node) :=
  match entries.get? key with
  | none => some (entries.insert key (.table .header ∅))
  | some (.table .implied inner) => some (entries.insert key (.table .header inner))
  | some _ => none

/-- Add a table to an array of tables. -/
def openElement (key : String) (entries : Dict Node) : Option (Dict Node) :=
  match entries.get? key with
  | none => some (entries.insert key (.tables [.table .header ∅]))
  | some (.tables ts) => some (entries.insert key (.tables (ts ++ [.table .header ∅])))
  | some _ => none

/-- What the statements so far have built, and the names of the open table. -/
structure Building where
  root : Dict Node
  current : List String

/-- Follow one statement. -/
def Building.follow (b : Building) : Statement → Option Building
  | .table key => do some ⟨← within (openTable key.last) key.path b.root, key.names⟩
  | .element key => do some ⟨← within (openElement key.last) key.path b.root, key.names⟩
  | .entry key value => do some ⟨← within (putEntry key value) b.current b.root, b.current⟩

/-- The tree that statements build. -/
def ofStatements? (statements : List Statement) : Option Node := do
  let b ← statements.foldlM Building.follow ⟨∅, []⟩
  some (.table .header b.root)

/-- The tree of a document. -/
def Node.parse? (text : String) : Option Node := (Statement.parse? text).bind ofStatements?

end Pipeline.Toml
