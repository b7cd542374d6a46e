import Pipeline.Error.Execution
import Pipeline.Memory.Manager

/-!
# The world of a run

What a run can change besides its register: the memories of the evaluators, and
the files.  A memory has a number, by which an evaluator and its children share
it.
-/

namespace Pipeline

/-- The number of a memory. -/
abbrev MemoryId := Nat

/-- The memories, by number.  One that was never set is empty. -/
structure Memories where
  stores : List (MemoryId × Store)
  deriving Inhabited

namespace Memories

/-- The memory with a number. -/
def get (m : Memories) (id : MemoryId) : Store := (m.stores.lookup id).getD Store.empty

/-- Replace the memory with a number. -/
def set (m : Memories) (id : MemoryId) (s : Store) : Memories :=
  ⟨(id, s) :: m.stores.filter fun e => e.1 ≠ id⟩

/-- A number above all that are in use. -/
def fresh (m : Memories) : MemoryId := m.stores.foldl (fun n e => max n (e.1 + 1)) 0

theorem lookup_filter_ne {id other : MemoryId} (h : other ≠ id) (l : List (MemoryId × Store)) :
    (l.filter fun e => e.1 ≠ id).lookup other = l.lookup other := by
  induction l with
  | nil => rfl
  | cons e rest ih =>
    obtain ⟨n, s⟩ := e
    by_cases hn : n = id
    · subst hn
      have hne : (other == n) = false := by simpa using h
      rw [List.lookup_cons, hne, ← ih]
      simp
    · have keep : ((n, s) :: rest).filter (fun e => e.1 ≠ id) =
          (n, s) :: rest.filter (fun e => e.1 ≠ id) := by simp [hn]
      rw [keep, List.lookup_cons, List.lookup_cons, ih]

theorem get_set (m : Memories) (id other : MemoryId) (s : Store) :
    (m.set id s).get other = if other = id then s else m.get other := by
  unfold get set
  rw [List.lookup_cons]
  by_cases h : other = id
  · simp [h]
  · have hne : (other == id) = false := by simpa using h
    rw [hne, if_neg h, lookup_filter_ne h]

end Memories

/-- What a run can change besides its register. -/
structure World where
  memories : Memories
  files : Files
  deriving Inhabited

/-- A world with nothing in it. -/
def World.empty : World := ⟨⟨[]⟩, Files.empty⟩

/-- An action on the world that always ends. -/
abbrev Act (α : Type) := Effect World ExecutionError α

/-- An action on the world that may run for ever. -/
abbrev Course (α : Type) := Process World ExecutionError α

namespace World

/-- The memory with a number. -/
def memory (w : World) (id : MemoryId) : Store := w.memories.get id

/-- Act on the files. -/
def onFiles {ε α : Type} (x : Effect Files ε α) : Effect World ε α :=
  Effect.zoom World.files (fun w fs => { w with files := fs }) x

/-- Act on one memory and the files. -/
def onMemory {α : Type} (id : MemoryId) (x : Store.Action α) : Act α :=
  (Effect.zoom (fun w : World => (w.memory id, w.files))
    (fun w s => ⟨w.memories.set id s.1, s.2⟩) x).mapError .memory

end World

end Pipeline
