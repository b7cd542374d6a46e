/-!
# Dictionaries with ascending keys

A *dictionary* maps strings to values.  It is a list of entries in strictly
ascending key order, and the order is part of the type: `Ascending V b` holds
entries whose keys all lie above the bound `b`, and a `Dict V` has no bound.

Each mapping has one form only, so two dictionaries with the same answers are
equal (`Ascending.ext`).  Strings are compared by code point, which is also the order
of their UTF-8 bytes.

A value that holds dictionaries of values is a plain inductive type, because the
proofs inside a dictionary speak of keys only.
-/

namespace Pipeline

/-- The key may stand after the bound: there is none, or it is smaller. -/
def Above : Option String → String → Prop
  | none, _ => True
  | some b, k => b < k

theorem Above.of_lt {b : Option String} {k l : String} (h : Above b k) (hl : k < l) :
    Above b l := by
  cases b with
  | none => trivial
  | some b => exact String.lt_trans h hl

theorem above_none (k : String) : Above none k := trivial

theorem above_some {k l : String} (h : k < l) : Above (some k) l := h

/-- Entries in ascending key order, all above the bound. -/
inductive Ascending (V : Type) : Option String → Type
  | nil {b : Option String} : Ascending V b
  | cons {b : Option String} (k : String) (v : V) (above : Above b k)
      (rest : Ascending V (some k)) : Ascending V b

/-- A dictionary with string keys. -/
abbrev Dict (V : Type) := Ascending V none

namespace Ascending

variable {V : Type} {b : Option String}

/-- The entries, smallest key first. -/
def toList : {b : Option String} → Ascending V b → List (String × V)
  | _, .nil => []
  | _, .cons k v _ rest => (k, v) :: rest.toList

/-- The value at a key. -/
def get? (key : String) : {b : Option String} → Ascending V b → Option V
  | _, .nil => none
  | _, .cons k v _ rest => if key = k then some v else rest.get? key

theorem lt_of_ne_of_not_lt {k l : String} (hne : ¬ k = l) (hlt : ¬ k < l) : l < k := by
  rcases Decidable.em (l < k) with h | h
  · exact h
  · exact absurd (String.le_antisymm (String.not_lt.mp h) (String.not_lt.mp hlt)) hne

/-- Put a value at a key that may stand after the bound, replacing the old one. -/
def insertAbove (key : String) (value : V) :
    {b : Option String} → Above b key → Ascending V b → Ascending V b
  | _, h, .nil => .cons key value h .nil
  | _, h, .cons k v hk rest =>
    if lt : key < k then .cons key value h (.cons k v lt rest)
    else if eq : key = k then .cons k value hk rest
    else .cons k v hk (rest.insertAbove key value (lt_of_ne_of_not_lt eq lt))

/-- The same entries under a smaller bound. -/
def weaken {k : String} (h : Above b k) : Ascending V (some k) → Ascending V b
  | .nil => .nil
  | .cons l v hl rest => .cons l v (h.of_lt hl) rest

/-- Drop a key. -/
def erase (key : String) : {b : Option String} → Ascending V b → Ascending V b
  | _, .nil => .nil
  | _, .cons k v hk rest => if key = k then rest.weaken hk else .cons k v hk (rest.erase key)

/-! ## What each operation does to the entries -/

theorem get?_eq_none_of_not_above {k : String} :
    ∀ {l : String} (d : Ascending V (some l)), ¬ l < k → d.get? k = none
  | _, .nil, _ => rfl
  | l, .cons m v hm rest, h => by
    have hne : k ≠ m := fun e => h (e ▸ hm)
    have hlt : ¬ m < k := fun e => h (String.lt_trans hm e)
    rw [get?, if_neg hne]
    exact get?_eq_none_of_not_above rest hlt

theorem get?_insertAbove (key k : String) (value : V) :
    ∀ {b : Option String} (h : Above b key) (d : Ascending V b),
      (d.insertAbove key value h).get? k = if k = key then some value else d.get? k
  | _, h, .nil => by simp [insertAbove, get?]
  | _, h, .cons l v hl rest => by
    unfold insertAbove
    split
    · simp [get?]
    · split
      · next eq => subst eq; by_cases hk : k = key <;> simp [get?, hk]
      · next lt eq =>
        have ih := get?_insertAbove key k value (above_some (lt_of_ne_of_not_lt eq lt)) rest
        simp only [get?, ih]
        by_cases hk : k = key
        · subst hk; simp [eq]
        · simp [hk]

theorem get?_weaken {l : String} (h : Above b l) (k : String) (d : Ascending V (some l)) :
    (d.weaken h).get? k = d.get? k := by
  cases d <;> rfl

@[simp] theorem get?_erase (key k : String) :
    ∀ {b : Option String} (d : Ascending V b),
      (d.erase key).get? k = if k = key then none else d.get? k
  | _, .nil => by simp [erase, get?]
  | _, .cons l v hl rest => by
    unfold erase
    split
    · next eq =>
      subst eq
      rw [get?_weaken]
      by_cases hk : k = key
      · subst hk
        simp [get?_eq_none_of_not_above rest (String.lt_irrefl k)]
      · simp [get?, hk]
    · next eq =>
      have ih := get?_erase key k rest
      simp only [get?, ih]
      by_cases hk : k = key
      · subst hk; simp [eq]
      · simp [hk]

/-- Two ascending lists with the same answers are the same list. -/
theorem ext : ∀ {b : Option String} {d e : Ascending V b}, (∀ k, d.get? k = e.get? k) → d = e
  | _, .nil, .nil, _ => rfl
  | _, .nil, .cons k v _ _, h => by simpa [get?] using h k
  | _, .cons k v _ _, .nil, h => by simpa [get?] using h k
  | _, .cons k v hk d, .cons l w hl e, h => by
    have key : k = l := by
      rcases Decidable.em (k = l) with eq | ne
      · exact eq
      exfalso
      rcases Decidable.em (k < l) with lt | lt
      · have h1 := h k
        have hgt : ¬ l < k := fun e => String.lt_irrefl k (String.lt_trans lt e)
        rw [get?, if_pos rfl, get?, if_neg ne, get?_eq_none_of_not_above e hgt] at h1
        cases h1
      · have h1 := h l
        rw [get?, if_neg (Ne.symm ne), get?_eq_none_of_not_above d lt, get?, if_pos rfl] at h1
        cases h1
    subst key
    have hv : v = w := by simpa [get?] using h k
    subst hv
    have rest : d = e := ext fun m => by
      rcases Decidable.em (m = k) with eq | ne
      · subst eq
        rw [get?_eq_none_of_not_above d (String.lt_irrefl m),
          get?_eq_none_of_not_above e (String.lt_irrefl m)]
      · have h1 := h m
        rwa [get?, if_neg ne, get?, if_neg ne] at h1
    rw [rest]

/-! ## Dictionaries -/

/-- No entries. -/
def empty : Dict V := .nil

instance : EmptyCollection (Dict V) := ⟨empty⟩

instance : Inhabited (Dict V) := ⟨empty⟩

/-- Put a value at a key, replacing the old one. -/
def insert (d : Dict V) (key : String) (value : V) : Dict V := Ascending.insertAbove key value (above_none key) d

/-- Whether a key has a value. -/
def contains (d : Ascending V b) (key : String) : Bool := (d.get? key).isSome

/-- The number of entries. -/
def size (d : Ascending V b) : Nat := d.toList.length

/-- Whether there are no entries. -/
def isEmpty (d : Ascending V b) : Bool := d.toList.isEmpty

/-- The keys, in ascending order. -/
def keys (d : Ascending V b) : List String := d.toList.map Prod.fst

/-- The entries of the list put in one after another: of equal keys the last one counts. -/
def insertAll (d : Dict V) (entries : List (String × V)) : Dict V :=
  entries.foldl (fun d e => d.insert e.1 e.2) d

/-- The dictionary of a list of entries: of equal keys the last one counts. -/
def ofList (entries : List (String × V)) : Dict V := insertAll empty entries

/-- The entries of both; where a key is in both, the second one's value. -/
def merge (d e : Dict V) : Dict V := d.insertAll e.toList

/-! ## Answers -/

@[simp] theorem get?_empty (k : String) : (empty : Dict V).get? k = none := rfl

@[simp] theorem get?_insert (d : Dict V) (key k : String) (value : V) :
    (d.insert key value).get? k = if k = key then some value else d.get? k :=
  get?_insertAbove key k value (above_none key) d

theorem get?_insertAll_toList {b : Option String} (d : Dict V) (e : Ascending V b) (k : String) :
    (d.insertAll e.toList).get? k = ((e.get? k).or (d.get? k)) := by
  induction e generalizing d with
  | nil => rfl
  | cons l v hl rest ih =>
    rw [Ascending.toList, insertAll, List.foldl_cons]
    change ((d.insert l v).insertAll rest.toList).get? k = _
    rw [ih, get?_insert, Ascending.get?]
    by_cases hk : k = l
    · subst hk
      simp [Ascending.get?_eq_none_of_not_above rest (String.lt_irrefl k)]
    · simp [hk]

@[simp] theorem get?_merge (d e : Dict V) (k : String) :
    (d.merge e).get? k = ((e.get? k).or (d.get? k)) :=
  get?_insertAll_toList d e k

end Ascending

end Pipeline
