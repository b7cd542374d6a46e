import Pipeline.View

/-!
# What a view writes back

`View.WritesBack` is the table of a view: what each kind of output leaves of the register, key
by key.  It names neither the value that was read nor the key it was read from.  The table
leaves no choice (`View.WritesBack.unique`), so it says all there is to say about writing, and
laws of writing are read off it.
-/

namespace Pipeline

namespace View

variable {view : View} {register after after' : Record} {output : Output}

/-- The value that an output has under a key of its own.  A mapping has none when the view gives
it no key. -/
def stored? (view : View) : Output → Option Value
  | .unchanged => none
  | .mapping r => view.setKey.map fun _ => .mapping r
  | .value v => some v

/-- What an output leaves of a register, key by key. -/
structure WritesBack (view : View) (register : Record) (output : Output) (after : Record) :
    Prop where
  /-- No output leaves the register as it is. -/
  unchanged : output = .unchanged → after = register
  /-- A mapping without a key of its own is merged into the register, -/
  merged : ∀ r, output = .mapping r → view.setKey = none → view.replace = .inplace →
    ∀ key, after.get? key = (r.get? key).or (register.get? key)
  /-- or replaces it. -/
  replaced : ∀ r, output = .mapping r → view.setKey = none → view.replace ≠ .inplace →
    after = r
  /-- Any other output lands at the set key, or else at the default key, -/
  landed : ∀ v, view.stored? output = some v →
    after.get? (view.setKey.getD view.defaultKey) = some v
  /-- beside the other entries -/
  kept : ∀ v, view.stored? output = some v → view.replace ≠ .global →
    ∀ key, key ≠ view.setKey.getD view.defaultKey → after.get? key = register.get? key
  /-- or in their place. -/
  dropped : ∀ v, view.stored? output = some v → view.replace = .global →
    ∀ key, key ≠ view.setKey.getD view.defaultKey → after.get? key = none

/-- Every output is one of three: nothing, a mapping that meets the register as a whole, or a
value for a key. -/
theorem output_cases (view : View) (output : Output) :
    output = .unchanged ∨ (∃ r, output = .mapping r ∧ view.setKey = none) ∨
      ∃ v, view.stored? output = some v := by
  cases output with
  | unchanged => exact .inl rfl
  | value v => exact .inr (.inr ⟨v, rfl⟩)
  | mapping r =>
    cases hkey : view.setKey with
    | none => exact .inr (.inl ⟨r, rfl, rfl⟩)
    | some key => exact .inr (.inr ⟨.mapping r, by rw [stored?, hkey]; rfl⟩)

/-- The table leaves one register. -/
theorem WritesBack.unique (h : view.WritesBack register output after)
    (h' : view.WritesBack register output after') : after = after' := by
  obtain hnone | ⟨r, hmapping, hkey⟩ | ⟨v, hstored⟩ := output_cases view output
  · rw [h.unchanged hnone, h'.unchanged hnone]
  · by_cases hreplace : view.replace = .inplace
    · apply Ascending.ext
      intro key
      rw [h.merged r hmapping hkey hreplace, h'.merged r hmapping hkey hreplace]
    · rw [h.replaced r hmapping hkey hreplace, h'.replaced r hmapping hkey hreplace]
  · apply Ascending.ext
    intro key
    by_cases htarget : key = view.setKey.getD view.defaultKey
    · rw [htarget, h.landed v hstored, h'.landed v hstored]
    · by_cases hreplace : view.replace = .global
      · rw [h.dropped v hstored hreplace key htarget, h'.dropped v hstored hreplace key htarget]
      · rw [h.kept v hstored hreplace key htarget, h'.kept v hstored hreplace key htarget]

theorem get?_store (view : View) (register : Record) (v : Value) (key : String) :
    (view.store register v).get? key =
      if key = view.setKey.getD view.defaultKey then some v
      else if view.replace = .global then none else register.get? key := by
  rw [store, targetKey]
  split <;> exact Ascending.get?_insert _ _ _ _

theorem write_of_stored {v : Value} (h : view.stored? output = some v) (register : Record) :
    view.write register output = view.store register v := by
  cases output with
  | unchanged => cases h
  | value v' =>
    cases h
    rfl
  | mapping r =>
    obtain ⟨key, hkey, rfl⟩ := Option.map_eq_some_iff.mp h
    simp [write, hkey]

/-- Writing follows the table. -/
theorem writesBack_write (view : View) (register : Record) (output : Output) :
    view.WritesBack register output (view.write register output) where
  unchanged h := by rw [h, write]
  merged r h hkey hreplace key := by simp [h, write, hkey, hreplace]
  replaced r h hkey hreplace := by simp [h, write, hkey, hreplace]
  landed v h := by rw [write_of_stored h, get?_store, if_pos rfl]
  kept v h hreplace key hne := by
    rw [write_of_stored h, get?_store, if_neg hne, if_neg hreplace]
  dropped v h hreplace key hne := by
    rw [write_of_stored h, get?_store, if_neg hne, if_pos hreplace]

/-- A register that has what the output would put in is left as it is. -/
theorem WritesBack.again (h : view.WritesBack register output after) :
    view.WritesBack after output after where
  unchanged _ := rfl
  merged r hmapping hkey hreplace key := by
    rw [h.merged r hmapping hkey hreplace]
    cases r.get? key <;> rfl
  replaced := h.replaced
  landed := h.landed
  kept _ _ _ _ _ := rfl
  dropped := h.dropped

end View

/-- A view writes back what its table says, and nothing else is a result of the table.  Where
the view reads from makes no difference, and an output written twice is written once. -/
theorem write_follows_table (view : View) (register : Record) (output : Output) :
    (∀ after, view.write register output = after ↔ view.WritesBack register output after) ∧
    (∀ getKey, { view with getKey }.write register output = view.write register output) ∧
    view.write (view.write register output) output = view.write register output := by
  have hwrites := view.writesBack_write register output
  refine ⟨fun after => ⟨fun h => h ▸ hwrites, hwrites.unique⟩, fun getKey => ?_, ?_⟩
  · -- The table of the other view is the same table, since it does not mention the key.
    have hother := { view with getKey }.writesBack_write register output
    have hsame : view.WritesBack register output ({ view with getKey }.write register output) :=
      ⟨hother.unchanged, hother.merged, hother.replaced, hother.landed, hother.kept,
        hother.dropped⟩
    exact hsame.unique hwrites
  · exact (view.writesBack_write _ output).unique hwrites.again

end Pipeline
