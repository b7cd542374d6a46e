import Pipeline.Dict

/-!
# Laws of dictionaries

Which keys a dictionary contains, after each change, and which changes come to the same.
-/

namespace Pipeline

namespace Ascending

variable {V : Type} {b : Option String}

@[simp] theorem contains_insert (d : Dict V) (key k : String) (value : V) :
    (d.insert key value).contains k = (decide (k = key) || d.contains k) := by
  rw [contains, get?_insert]
  by_cases hk : k = key
  · simp [hk]
  · simp [hk, contains]

@[simp] theorem contains_erase (d : Ascending V b) (key k : String) :
    (d.erase key).contains k = (decide (k ≠ key) && d.contains k) := by
  rw [contains, get?_erase]
  by_cases hk : k = key
  · simp [hk]
  · simp [hk, contains]

/-- Of two values put at one key the second stays. -/
@[simp] theorem insert_insert (d : Dict V) (key : String) (v v' : V) :
    (d.insert key v).insert key v' = d.insert key v' := by
  apply Ascending.ext
  intro k
  rw [get?_insert, get?_insert, get?_insert]
  split <;> rfl

/-- Taking out what was put in leaves what was there without the key. -/
theorem erase_insert (d : Dict V) (key : String) (value : V) :
    (d.insert key value).erase key = d.erase key := by
  apply Ascending.ext
  intro k
  rw [get?_erase, get?_insert, get?_erase]
  split <;> rfl

/-- Putting back what was taken out leaves what was there. -/
theorem insert_erase {d : Dict V} {key : String} {value : V} (h : d.get? key = some value) :
    (d.erase key).insert key value = d := by
  apply Ascending.ext
  intro k
  rw [get?_insert, get?_erase]
  by_cases hk : k = key
  · rw [if_pos hk, hk, h]
  · rw [if_neg hk, if_neg hk]

theorem empty_merge (d : Dict V) : (∅ : Dict V).merge d = d := by
  apply Ascending.ext
  intro k
  rw [get?_merge]
  exact Option.or_none

/-- Some keys dropped one after another. -/
def eraseAll (d : Ascending V b) (keys : List String) : Ascending V b :=
  keys.foldl (fun d key => d.erase key) d

@[simp] theorem get?_eraseAll (d : Ascending V b) (keys : List String) (k : String) :
    (d.eraseAll keys).get? k = if k ∈ keys then none else d.get? k := by
  induction keys generalizing d with
  | nil => simp [eraseAll]
  | cons key rest ih =>
    have hrest : ((d.erase key).eraseAll rest).get? k = _ := ih (d.erase key)
    rw [eraseAll, List.foldl_cons, ← eraseAll, hrest, get?_erase]
    by_cases hk : k = key <;> simp [hk]

/-- Taking a key out changes nothing just when it is not there. -/
theorem erase_eq_self_iff (d : Dict V) (key : String) :
    d.erase key = d ↔ d.contains key = false := by
  constructor
  · intro h
    rw [← h, contains_erase]
    simp
  · intro h
    have hget : d.get? key = none := by simpa [contains] using h
    apply Ascending.ext
    intro k
    rw [get?_erase]
    by_cases hk : k = key
    · rw [if_pos hk, hk, hget]
    · rw [if_neg hk]

theorem mem_keys (d : Ascending V b) (key : String) : key ∈ d.keys ↔ d.contains key = true := by
  induction d with
  | nil => simp [keys, toList, contains, get?]
  | cons k value above rest ih =>
    have hrest : key ∈ rest.toList.map Prod.fst ↔ (rest.get? key).isSome = true := ih
    rw [keys, toList, List.map_cons, List.mem_cons, hrest, contains, get?]
    by_cases hk : key = k
    · simp [hk]
    · simp [hk]

/-! ## Values -/

/-- The values, in the order of their keys. -/
def values (d : Ascending V b) : List V := d.toList.map Prod.snd

theorem length_values (d : Ascending V b) : d.values.length = d.size := List.length_map ..

theorem toList_weaken {key : String} (h : Above b key) (d : Ascending V (some key)) :
    (d.weaken h).toList = d.toList := by
  cases d <;> rfl

/-- A dictionary has the value at a key beside those that are left without the key. -/
theorem values_perm_erase {d : Ascending V b} {key : String} {value : V}
    (h : d.get? key = some value) : d.values.Perm (value :: (d.erase key).values) := by
  induction d with
  | nil => cases h
  | cons k v above rest ih =>
    rw [get?] at h
    rw [erase]
    split at h
    · next hkey =>
      cases h
      rw [if_pos hkey, values, values, toList_weaken]
      exact .refl _
    · next hkey =>
      rw [if_neg hkey]
      exact ((ih h).cons v).trans (.swap value v _)

/-- A value at a new key stands beside the others. -/
theorem values_insert_perm {d : Dict V} {key : String} (h : d.contains key = false) (value : V) :
    (d.insert key value).values.Perm (value :: d.values) := by
  have hentry : (d.insert key value).get? key = some value := by rw [get?_insert, if_pos rfl]
  have hvalues := values_perm_erase hentry
  rwa [erase_insert, (erase_eq_self_iff d key).mpr h] at hvalues

end Ascending

end Pipeline
