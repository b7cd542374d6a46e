import Pipeline.Proofs.MemoryReads
import Pipeline.Proofs.Sequences

/-!
# Hand-offs through memory

A value that is moved into memory and popped out again is where it was, and memory has lost the
key that it went through, with whatever was there before.

Each component is one equation on a memory in process: `setMemory_moves` for the value that
leaves the register, `getMemory_pops` for the value that comes back.  The laws of dictionaries
that make them cancel are `Ascending.insert_erase` on the register and `Ascending.erase_insert`
on the memory.
-/

namespace Pipeline

section

variable {entries register : Record} {key : String} {value : Value} {e : Evaluator} {w : World}

/-- What storing takes from the register: the value at a key, or the whole register. -/
def takenValue (getKey : Option String) (register : Record) : Option Value :=
  match getKey with
  | none => some (.mapping register)
  | some getKey => register.get? getKey

/-- What moving leaves of the register. -/
def withoutTaken (getKey : Option String) (register : Record) : Record :=
  match getKey with
  | none => ∅
  | some getKey => register.erase getKey

/-- A value that is there moves from the register into memory. -/
theorem setMemory_moves (hmemory : w.memory e.memory = .inProcess entries)
    (key : String) (getKey : Option String) (hvalue : takenValue getKey register = some value)
    (name : String) :
    (Component.setMemory name key getKey .move).Ends e register w
      (.ok (.next (withoutTaken getKey register)))
      (w.withMemory e.memory (.inProcess (entries.insert key value), w.files)) := by
  have hstored : Memory.set key value (w.memory e.memory, w.files) =
      ⟨.ok (), (Message.memoryStored key false).broadcast,
        (.inProcess (entries.insert key value), w.files)⟩ := by
    rw [hmemory]
    rfl
  have hset : e.setMemory register getKey key w =
      ⟨.ok (), (Message.memoryStored key false).broadcast,
        w.withMemory e.memory (.inProcess (entries.insert key value), w.files)⟩ := by
    cases getKey with
    | none =>
      cases hvalue
      exact World.onMemory_of_run hstored
    | some getKey =>
      have hentry : register.get? getKey = some value := hvalue
      simp only [Evaluator.setMemory, hentry]
      exact World.onMemory_of_run hstored
  refine ⟨(Message.memoryStored key false).broadcast ++ [], 0, congrArg some ?_⟩
  change runSetMemory key getKey .move e register w = _
  unfold runSetMemory
  rw [Effect.bind_of_ok hset]
  cases getKey <;> rfl

/-- An entry that is there moves from memory into the register. -/
theorem getMemory_pops (hmemory : w.memory e.memory = .inProcess entries)
    (hvalue : entries.get? key = some value) (name registerKey : String)
    (default register : Record) :
    (Component.getMemory name [⟨key, registerKey⟩] default .pop).Ends e register w
      (.ok (.next (register.insert registerKey value)))
      (w.withMemory e.memory (.inProcess (entries.erase key), w.files)) := by
  have hfound : Memory.found entries default key = some value := by
    rw [Memory.found, hvalue, Option.some_or]
  have hfetch : Memory.fetch (Memory.found entries default) [⟨key, registerKey⟩] register =
      .ok (register.insert registerKey value) :=
    Memory.fetch_of_found hfound [] register
  have hkeys : ([⟨key, registerKey⟩] : List Identifier).map Identifier.memoryKey |>.Nodup :=
    List.pairwise_singleton _ _
  obtain ⟨events, left, hpop, hleft⟩ :=
    Memory.pop_apply hkeys entries default register w.files
  rw [hfetch, hleft _ hfetch, ← hmemory] at hpop
  exact ⟨events, 0, congrArg some (runGetMemory_of_get .pop hpop)⟩

/-- What was moved into memory is popped from there, and memory has no entry left under the key. -/
theorem move_then_pop (hmemory : w.memory e.memory = .inProcess entries) (key : String)
    (getKey : Option String) (hvalue : takenValue getKey register = some value)
    (setName getName registerKey : String) (default : Record) :
    StepsComplete e [.setMemory setName key getKey .move,
        .getMemory getName [⟨key, registerKey⟩] default .pop] register w
      ((withoutTaken getKey register).insert registerKey value)
      (w.withMemory e.memory (.inProcess (entries.erase key), w.files)) := by
  have hstored : (w.withMemory e.memory (.inProcess (entries.insert key value), w.files)).memory
      e.memory = .inProcess (entries.insert key value) := by
    rw [World.memory_withMemory, if_pos rfl]
  have hentry : (entries.insert key value).get? key = some value := by
    rw [Ascending.get?_insert, if_pos rfl]
  have hpop := getMemory_pops hstored hentry getName registerKey default
    (withoutTaken getKey register)
  rw [World.withMemory_withMemory, Ascending.erase_insert] at hpop
  exact .cons (setMemory_moves hmemory key getKey hvalue setName) (.cons hpop .nil)

/-- A mapping that is unpacked is merged into what is left of the input without it. -/
theorem unpackValue_of_mapping {inner : Record} (h : register.get? key = some (.mapping inner)) :
    (Action.unpackValue key).execute (.mapping register) =
      .ok (.mapping (Ascending.merge (register.erase key) inner)) := by
  simp only [Action.unpackValue, Value.expectRecord, bind, Except.bind, h]

/-- Unpacking the one entry of a register gives the mapping that it holds. -/
theorem unpackValue_ends (key : String) (inner : Record) (name : String) (e : Evaluator)
    (w : World) :
    ((Component.ofAction (.unpackValue key)).rename name).Ends e
      ((∅ : Record).insert key (.mapping inner)) w (.ok (.next inner)) w := by
  have hentry : ((∅ : Record).insert key (Value.mapping inner)).get? key =
      some (.mapping inner) := by
    rw [Ascending.get?_insert, if_pos rfl]
  have hrest : Ascending.merge (((∅ : Record).insert key (Value.mapping inner)).erase key) inner =
      inner := by
    rw [Ascending.erase_insert]
    exact Ascending.empty_merge inner
  have hgiven : (Action.unpackValue key).outputOn (.root defaultOutputKey .local)
      ((∅ : Record).insert key (.mapping inner)) = .ok (.mapping inner) :=
    (unpackValue_of_mapping hentry).trans (by rw [hrest])
  have hends := action_ends name (.root defaultOutputKey .local) (.unpackValue key) e
    ((∅ : Record).insert key (.mapping inner)) w
  rw [hgiven] at hends
  exact hends

end

/-! ## The result -/

/-- A value that is moved into a memory in process and popped again to where it was leaves the
register as it was.  So does a whole register that is moved, popped to one key and unpacked from
there, be it a key of its own or not.  Memory is then without the key that the value went
through, had it an entry before or not, and nothing else in the world has changed. -/
theorem hand_off_is_lossless {entries : Record} {e : Evaluator} {w : World}
    (hmemory : w.memory e.memory = .inProcess entries) (key : String) (register default : Record)
    (setName getName unpackName : String) :
    let left := w.withMemory e.memory (.inProcess (entries.erase key), w.files)
    let move := fun getKey => Component.setMemory setName key getKey .move
    let pop := fun registerKey => Component.getMemory getName [⟨key, registerKey⟩] default .pop
    let unpack := fun nested => (Component.ofAction (.unpackValue nested)).rename unpackName
    (∀ getKey, register.contains getKey = true →
      ((move (some getKey)).andThen (pop getKey)).Ends e register w (.ok (.next register)) left) ∧
    ∀ through, (((move none).andThen (pop through)).andThen (unpack through)).Ends e register w
      (.ok (.next register)) left := by
  intro left move pop unpack
  constructor
  · intro getKey hcontains
    obtain ⟨value, hvalue⟩ := Option.isSome_iff_exists.mp hcontains
    have hback := move_then_pop hmemory key (some getKey) hvalue setName getName getKey default
    have hregister : (withoutTaken (some getKey) register).insert getKey value = register :=
      Ascending.insert_erase hvalue
    rw [hregister] at hback
    exact hback.ends _
  · intro through
    have hwhole : takenValue none register = some (.mapping register) := rfl
    have hback := move_then_pop hmemory key none hwhole setName getName through default
    have hunpacked := unpackValue_ends through register unpackName e left
    exact (hback.append (.cons hunpacked .nil)).ends _

/-- A register whose own key is used on the way, through a slot that is taken. -/
theorem taken_slot_hand_off :
    let entries : Record := Ascending.ofList [("other", .bool true), ("slot", .int 7)]
    let w : World := ⟨⟨[(0, .inProcess entries)]⟩, Files.empty⟩
    let left := w.withMemory 0 (.inProcess (Ascending.ofList [("other", .bool true)]), w.files)
    let e := Evaluator.make "Root" .off false 0
    let register : Record := Ascending.ofList [("a", .list [.null]), ("b", .string "text")]
    let move := fun getKey => Component.setMemory "Move" "slot" getKey .move
    let pop := fun registerKey => Component.getMemory "Pop" [⟨"slot", registerKey⟩] ∅ .pop
    register.contains "a" = true ∧
    ((move (some "a")).andThen (pop "a")).Ends e register w (.ok (.next register)) left ∧
    (((move none).andThen (pop "b")).andThen ((Component.ofAction (.unpackValue "b")).rename
      "Unpack")).Ends e register w (.ok (.next register)) left := by
  intro entries w left e register move pop
  have hmemory : w.memory e.memory = .inProcess entries := rfl
  obtain ⟨hvalue, hwhole⟩ :=
    hand_off_is_lossless hmemory "slot" register ∅ "Move" "Pop" "Unpack"
  exact ⟨rfl, hvalue "a" rfl, hwhole "b"⟩

end Pipeline
