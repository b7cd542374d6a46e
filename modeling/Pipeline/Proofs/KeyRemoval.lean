import Pipeline.Interpreter
import Pipeline.Proofs.Dict
import Pipeline.Proofs.MemoryActions

/-!
# Removing listed keys

A mapping drops listed keys one after another, and so does a memory in process, but they treat
a key that is not there in opposite ways: the mapping refuses it, the memory passes over it.  A
key that is listed twice is not there the second time.

What is left is the same in both, the entries whose keys are not listed
(`Ascending.IsWithout`).  For the mapping the list must be `Action.Droppable`, and
`Action.FirstStuck` is the key that it fails at; each of the two follows the list with one
lemma for a key in front, and the runs follow from these by induction.
-/

namespace Pipeline

namespace Ascending

variable {V : Type} {d rest rest' : Dict V} {keys keys' : List String}

/-- One dictionary has the entries of another whose keys are not listed. -/
structure IsWithout (rest : Dict V) (keys : List String) (d : Dict V) : Prop where
  gone : ∀ key ∈ keys, rest.get? key = none
  kept : ∀ key, key ∉ keys → rest.get? key = d.get? key

theorem isWithout_eraseAll (d : Dict V) (keys : List String) :
    (d.eraseAll keys).IsWithout keys d where
  gone key hkey := by rw [get?_eraseAll, if_pos hkey]
  kept key hkey := by rw [get?_eraseAll, if_neg hkey]

namespace IsWithout

theorem unique (h : rest.IsWithout keys d) (h' : rest'.IsWithout keys d) : rest = rest' := by
  apply Ascending.ext
  intro key
  by_cases hkey : key ∈ keys
  · rw [h.gone key hkey, h'.gone key hkey]
  · rw [h.kept key hkey, h'.kept key hkey]

/-- Neither the order of the keys nor their repetition matters. -/
theorem congr (h : rest.IsWithout keys d) (hmem : ∀ key, key ∈ keys' ↔ key ∈ keys) :
    rest.IsWithout keys' d where
  gone key hkey := h.gone key ((hmem key).mp hkey)
  kept key hkey := h.kept key fun hkeys => hkey ((hmem key).mpr hkeys)

end IsWithout

theorem eraseAll_congr (d : Dict V) (hmem : ∀ key, key ∈ keys' ↔ key ∈ keys) :
    d.eraseAll keys' = d.eraseAll keys :=
  (isWithout_eraseAll d keys').unique ((isWithout_eraseAll d keys).congr hmem)

end Ascending

/-! ## From a mapping -/

namespace Action

variable {keys rest : List String} {key k : String} {m : Record}

/-- The keys are in the mapping, and each is listed once. -/
structure Droppable (keys : List String) (m : Record) : Prop where
  nodup : keys.Nodup
  present : ∀ key ∈ keys, m.contains key = true

/-- The key is the first in the list that is not in the mapping or repeats an earlier one. -/
def FirstStuck (keys : List String) (m : Record) (key : String) : Prop :=
  ∃ before after, keys = before ++ key :: after ∧ Droppable before m ∧
    (m.contains key = false ∨ key ∈ before)

theorem droppable_nil (m : Record) : Droppable [] m := ⟨List.nodup_nil, nofun⟩

/-- The keys after the first are dropped from what the first leaves. -/
theorem droppable_cons :
    Droppable (key :: rest) m ↔ m.contains key = true ∧ Droppable rest (m.erase key) := by
  constructor
  · intro h
    obtain ⟨hkey, hrest⟩ := List.nodup_cons.mp h.nodup
    refine ⟨h.present key List.mem_cons_self, hrest, fun k hk => ?_⟩
    have hne : k ≠ key := fun heq => hkey (heq ▸ hk)
    rw [Ascending.contains_erase, h.present k (List.mem_cons_of_mem key hk), decide_eq_true hne]
    rfl
  · rintro ⟨hcontains, h⟩
    have hleft (k : String) (hk : k ∈ rest) : k ≠ key ∧ m.contains k = true := by
      simpa using h.present k hk
    refine ⟨List.nodup_cons.mpr ⟨fun hkey => (hleft key hkey).1 rfl, h.nodup⟩, fun k hk => ?_⟩
    rcases List.mem_cons.mp hk with rfl | hk
    · exact hcontains
    · exact (hleft k hk).2

theorem not_firstStuck_nil : ¬ FirstStuck [] m key := by
  rintro ⟨before, after, hkeys, -⟩
  cases before <;> cases hkeys

/-- Dropping is stuck at its first key, or later in what that one leaves. -/
theorem firstStuck_cons :
    FirstStuck (k :: rest) m key ↔
      (m.contains k = false ∧ key = k) ∨
      (m.contains k = true ∧ FirstStuck rest (m.erase k) key) := by
  constructor
  · rintro ⟨before, after, hkeys, hbefore, hstuck⟩
    cases before with
    | nil =>
      cases hkeys
      exact .inl ⟨hstuck.resolve_right List.not_mem_nil, rfl⟩
    | cons first before =>
      cases hkeys
      obtain ⟨hcontains, hbefore⟩ := droppable_cons.mp hbefore
      refine .inr ⟨hcontains, before, after, rfl, hbefore, ?_⟩
      -- A repeated first key is missing once it is erased.
      rw [Ascending.contains_erase]
      rcases hstuck with habsent | hrepeated
      · exact .inl (by rw [habsent, Bool.and_false])
      · rcases List.mem_cons.mp hrepeated with rfl | hbefore
        · exact .inl (by simp)
        · exact .inr hbefore
  · rintro (⟨habsent, rfl⟩ | ⟨hcontains, before, after, rfl, hbefore, hstuck⟩)
    · exact ⟨[], rest, rfl, droppable_nil m, .inl habsent⟩
    · refine ⟨k :: before, after, rfl, droppable_cons.mpr ⟨hcontains, hbefore⟩, ?_⟩
      by_cases hkey : key = k
      · exact .inr (hkey ▸ List.mem_cons_self)
      · rw [Ascending.contains_erase, decide_eq_true hkey, Bool.true_and] at hstuck
        exact hstuck.imp_right (List.mem_cons_of_mem k)

theorem dropKeys_eq_ok_iff {r : Record} :
    dropKeys keys m = .ok r ↔ Droppable keys m ∧ r = m.eraseAll keys := by
  induction keys generalizing m with
  | nil =>
    have hrun : dropKeys [] m = .ok r ↔ r = m :=
      ⟨fun h => by cases h; rfl, fun h => congrArg Except.ok h.symm⟩
    exact hrun.trans (iff_and_self.mpr fun _ => droppable_nil m)
  | cons key rest ih =>
    rw [dropKeys, droppable_cons]
    cases hcontains : m.contains key with
    | false =>
      rw [if_neg Bool.false_ne_true]
      exact ⟨nofun, fun h => absurd h.1.1 Bool.false_ne_true⟩
    | true =>
      rw [if_pos rfl, ih]
      exact ⟨fun ⟨hrest, hr⟩ => ⟨⟨rfl, hrest⟩, hr⟩, fun ⟨⟨_, hrest⟩, hr⟩ => ⟨hrest, hr⟩⟩

theorem dropKeys_eq_error_iff {error : ExecutionError} :
    dropKeys keys m = .error error ↔ ∃ key, FirstStuck keys m key ∧ error = .missingKey key := by
  induction keys generalizing m with
  | nil => exact ⟨nofun, fun ⟨_, hstuck, _⟩ => absurd hstuck not_firstStuck_nil⟩
  | cons k rest ih =>
    rw [dropKeys]
    simp only [firstStuck_cons]
    cases hcontains : m.contains k with
    | false =>
      rw [if_neg Bool.false_ne_true]
      constructor
      · intro h
        cases h
        exact ⟨k, .inl ⟨rfl, rfl⟩, rfl⟩
      · rintro ⟨_, ⟨-, rfl⟩ | ⟨hcontains, -⟩, rfl⟩
        · rfl
        · cases hcontains
    | true =>
      rw [if_pos rfl, ih]
      constructor
      · rintro ⟨key, hstuck, rfl⟩
        exact ⟨key, .inr ⟨rfl, hstuck⟩, rfl⟩
      · rintro ⟨key, ⟨habsent, -⟩ | ⟨-, hstuck⟩, rfl⟩
        · cases habsent
        · exact ⟨key, hstuck, rfl⟩

/-- Flushing listed keys is dropping them from a mapping. -/
theorem execute_flush (keys : List String) (m : Record) :
    (flush (some keys)).execute (.mapping m) = (dropKeys keys m).map Output.mapping := by
  simp only [flush, Value.expectRecord, bind, Except.bind]
  cases dropKeys keys m <;> rfl

theorem flush_eq_ok_iff {output : Output} :
    (flush (some keys)).execute (.mapping m) = .ok output ↔
      Droppable keys m ∧ output = .mapping (m.eraseAll keys) := by
  rw [execute_flush]
  constructor
  · intro h
    cases hdrop : dropKeys keys m with
    | error error => rw [hdrop] at h; cases h
    | ok r =>
      rw [hdrop] at h
      cases h
      exact (dropKeys_eq_ok_iff.mp hdrop).imp_right (congrArg Output.mapping)
  · rintro ⟨h, rfl⟩
    rw [dropKeys_eq_ok_iff.mpr ⟨h, rfl⟩]
    rfl

theorem flush_eq_error_iff {error : ExecutionError} :
    (flush (some keys)).execute (.mapping m) = .error error ↔
      ∃ key, FirstStuck keys m key ∧ error = .missingKey key := by
  rw [execute_flush, ← dropKeys_eq_error_iff]
  cases dropKeys keys m with
  | ok r => exact ⟨nofun, nofun⟩
  | error e => exact ⟨fun h => by cases h; rfl, fun h => by cases h; rfl⟩

theorem flush_succeeds_iff :
    (∃ output, (flush (some keys)).execute (.mapping m) = .ok output) ↔
      keys.Nodup ∧ ∀ key ∈ keys, m.contains key = true := by
  constructor
  · rintro ⟨output, h⟩
    obtain ⟨hdroppable, -⟩ := flush_eq_ok_iff.mp h
    exact ⟨hdroppable.nodup, hdroppable.present⟩
  · rintro ⟨hnodup, hpresent⟩
    exact ⟨_, flush_eq_ok_iff.mpr ⟨⟨hnodup, hpresent⟩, rfl⟩⟩

theorem isWithout_of_flush {output : Output}
    (h : (flush (some keys)).execute (.mapping m) = .ok output) :
    ∃ rest : Record, output = .mapping rest ∧ rest.IsWithout keys m := by
  obtain ⟨-, rfl⟩ := flush_eq_ok_iff.mp h
  exact ⟨_, rfl, Ascending.isWithout_eraseAll m keys⟩

theorem Droppable.of_perm {keys' : List String} (h : Droppable keys m) (hperm : keys'.Perm keys) :
    Droppable keys' m where
  nodup := hperm.nodup_iff.mpr h.nodup
  present key hkey := h.present key (hperm.mem_iff.mp hkey)

/-- Keys that can be flushed can be flushed in any order. -/
theorem flush_of_perm {keys' : List String} {output : Output} (hperm : keys'.Perm keys)
    (h : (flush (some keys)).execute (.mapping m) = .ok output) :
    (flush (some keys')).execute (.mapping m) = .ok output := by
  obtain ⟨hdroppable, rfl⟩ := flush_eq_ok_iff.mp h
  refine flush_eq_ok_iff.mpr ⟨hdroppable.of_perm hperm, ?_⟩
  rw [Ascending.eraseAll_congr m fun key => hperm.mem_iff]

end Action

/-! ## From a memory in process -/

theorem Memory.deleteAll_apply (keys : List String) (entries : Record) (fs : Files) :
    deleteAll keys (.inProcess entries, fs) =
      ⟨.ok (), [], (.inProcess (entries.eraseAll keys), fs)⟩ := by
  induction keys generalizing entries with
  | nil => rfl
  | cons key rest ih =>
    have hdelete : delete key (.inProcess entries, fs) = _ := Store.delete_apply key entries fs
    rw [deleteAll, Effect.bind_of_ok hdelete, ih]
    rfl

/-- Deleting listed entries of a memory in process leaves the others, and is silent. -/
theorem Component.run_deleteMemory {e : Evaluator} {w : World} {entries : Record}
    {keys : List String} (hmemory : w.memory e.memory = .inProcess entries) (hkeys : keys ≠ [])
    (name : String) (rounds : Nat) (register : Record) :
    (Component.deleteMemory name keys).run rounds e register w =
      some ⟨.ok (.next register), [],
        w.withMemory e.memory (.inProcess (entries.eraseAll keys), w.files)⟩ := by
  have hleft : Memory.deleteAll keys (w.memory e.memory, w.files) =
      ⟨.ok (), [], (.inProcess (entries.eraseAll keys), w.files)⟩ := by
    rw [hmemory, Memory.deleteAll_apply]
  have hdelete : e.deleteMemory keys w = ⟨.ok (), [],
      w.withMemory e.memory (.inProcess (entries.eraseAll keys), w.files)⟩ :=
    World.onMemory_of_run hleft
  have hlisted : keys.isEmpty = false := by simpa using hkeys
  have hrun : runDeleteMemory keys e register w = ⟨.ok (.next register), [],
      w.withMemory e.memory (.inProcess (entries.eraseAll keys), w.files)⟩ := by
    rw [runDeleteMemory, hlisted, if_neg Bool.false_ne_true, Effect.bind_of_ok hdelete]
    rfl
  exact congrArg some hrun

/-! ## The result -/

/-- Flushing listed keys of a mapping succeeds just when each is there and listed once; it gives
the mapping without them, whatever their order, and else names the first key that is missing or
repeats an earlier one.  Deleting listed entries of a memory in process always succeeds and
leaves the entries that are not listed, whatever their order and however often they are listed;
the register, the other memories and the files stay. -/
theorem key_removal_is_exact (keys : List String) :
    (∀ m : Record,
      ((∃ output, (Action.flush (some keys)).execute (.mapping m) = .ok output) ↔
        keys.Nodup ∧ ∀ key ∈ keys, m.contains key = true) ∧
      (∀ output, (Action.flush (some keys)).execute (.mapping m) = .ok output →
        ∃ rest : Record, output = .mapping rest ∧ rest.IsWithout keys m) ∧
      (∀ keys' output, keys'.Perm keys →
        (Action.flush (some keys)).execute (.mapping m) = .ok output →
        (Action.flush (some keys')).execute (.mapping m) = .ok output) ∧
      ∀ error, (Action.flush (some keys)).execute (.mapping m) = .error error ↔
        ∃ key, Action.FirstStuck keys m key ∧ error = .missingKey key) ∧
    ∀ (e : Evaluator) (w : World) (entries : Record),
      keys ≠ [] → w.memory e.memory = .inProcess entries →
      ∃ left : World,
        (∃ rest : Record, left.memory e.memory = .inProcess rest ∧ rest.IsWithout keys entries) ∧
        (∀ other, other ≠ e.memory → left.memory other = w.memory other) ∧
        left.files = w.files ∧
        ∀ name rounds register keys', (∀ key, key ∈ keys' ↔ key ∈ keys) →
          (Component.deleteMemory name keys').run rounds e register w =
            some ⟨.ok (.next register), [], left⟩ := by
  constructor
  · intro m
    exact ⟨Action.flush_succeeds_iff, fun _ h => Action.isWithout_of_flush h,
      fun _ _ hperm h => Action.flush_of_perm hperm h, fun _ => Action.flush_eq_error_iff⟩
  · intro e w entries hkeys hmemory
    refine ⟨w.withMemory e.memory (.inProcess (entries.eraseAll keys), w.files),
      ⟨entries.eraseAll keys, ?_, Ascending.isWithout_eraseAll entries keys⟩, ?_, rfl, ?_⟩
    · rw [World.memory_withMemory, if_pos rfl]
    · intro other hother
      rw [World.memory_withMemory, if_neg hother]
    · intro name rounds register keys' hmem
      have hlisted : keys' ≠ [] := by
        rintro rfl
        obtain ⟨key, hkey⟩ := List.exists_mem_of_ne_nil keys hkeys
        exact List.not_mem_nil ((hmem key).mpr hkey)
      rw [Component.run_deleteMemory hmemory hlisted, Ascending.eraseAll_congr entries hmem]

/-- A key that is listed twice is refused by a mapping and taken from a memory. -/
theorem twiceListed_removal_is_exact :
    let keys := ["b", "a", "b"]
    let m : Record := Ascending.ofList [("a", .int 1), ("b", .int 2), ("c", .null)]
    let w : World := ⟨⟨[(0, .inProcess m)]⟩, Files.empty⟩
    let e := Evaluator.make "Root" .off false 0
    (Action.flush (some keys)).execute (.mapping m) = .error (.missingKey "b") ∧
    (Action.flush (some ["a", "b"])).execute (.mapping m) =
      .ok (.mapping (Ascending.ofList [("c", .null)])) ∧
    keys ≠ [] ∧ w.memory e.memory = .inProcess m ∧
    ∃ left : World, left.memory e.memory = .inProcess (Ascending.ofList [("c", .null)]) ∧
      (Component.deleteMemory "Forget" keys).run 0 e m w = some ⟨.ok (.next m), [], left⟩ ∧
      (Component.deleteMemory "Forget" ["a", "b"]).run 0 e m w =
        some ⟨.ok (.next m), [], left⟩ := by
  intro keys m w e
  have hrest : (Ascending.ofList [("c", Value.null)] : Record).IsWithout keys m :=
    Ascending.isWithout_eraseAll m keys
  have hstuck : Action.FirstStuck keys m "b" :=
    ⟨["b", "a"], [], rfl, ⟨by decide, by decide⟩, .inr (by decide)⟩
  have hmem (key : String) : key ∈ ["a", "b"] ↔ key ∈ keys := by grind
  obtain ⟨hflush, hdelete⟩ := key_removal_is_exact keys
  obtain ⟨hsucceeds, hwithout, -, -⟩ := (key_removal_is_exact ["a", "b"]).1 m
  obtain ⟨left, ⟨rest, hleft, hkept⟩, -, -, hruns⟩ := hdelete e w m (by decide) rfl
  obtain ⟨output, hok⟩ := hsucceeds.mpr ⟨by decide, by decide⟩
  obtain ⟨kept, rfl, hkept'⟩ := hwithout output hok
  refine ⟨((hflush m).2.2.2 _).mpr ⟨"b", hstuck, rfl⟩, ?_, by decide, rfl, left, ?_,
    hruns "Forget" 0 m keys fun _ => Iff.rfl, hruns "Forget" 0 m ["a", "b"] hmem⟩
  · rw [hok, hkept'.unique (hrest.congr hmem)]
  · rw [hleft, hkept.unique hrest]

end Pipeline
