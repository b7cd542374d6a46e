import Pipeline.Dict
import Pipeline.Number

/-!
# Values and records

A *value* is what a register holds under a key: null, a truth value, a number, a
text, a list of values or a mapping.  A *record* is a mapping from keys to
values.  Registers are records.
-/

namespace Pipeline

/-- A dynamically typed value. -/
inductive Value
  | null
  | bool (b : Bool)
  | number (n : Number)
  | string (s : String)
  | list (xs : List Value)
  | mapping (r : Ascending Value none)
  deriving Inhabited

/-- A mapping from keys to values, in ascending key order. -/
abbrev Record := Dict Value

/-- What kind of value a value is. -/
inductive Kind
  | null
  | bool
  | number
  | string
  | list
  | mapping
  deriving DecidableEq, Repr

/-- The word for a kind. -/
def Kind.word : Kind → String
  | .null => "null"
  | .bool => "bool"
  | .number => "number"
  | .string => "string"
  | .list => "list"
  | .mapping => "mapping"

/-- The mapping of some fields. -/
def showFields (fields : List (String × Value)) : Value := .mapping (Ascending.ofList fields)

/-- A text, or null. -/
def showText (s : Option String) : Value := (s.map Value.string).getD .null

namespace Value

/-- The kind of a value. -/
def kind : Value → Kind
  | .null => .null
  | .bool _ => .bool
  | .number _ => .number
  | .string _ => .string
  | .list _ => .list
  | .mapping _ => .mapping

/-- The integer value. -/
def int (n : Int) : Value := .number (.int n)

/-- The integer of 64 bits with a sign, if the value is one. -/
def asSigned? : Value → Option Int
  | .number n => n.asSigned?
  | _ => none

/-! ## Equality -/

mutual

/-- Whether two values are the same. -/
def decEq : (a b : Value) → Decidable (a = b)
  | .null, .null => isTrue rfl
  | .bool a, .bool b =>
    if h : a = b then isTrue (h ▸ rfl) else isFalse (fun e => by cases e; exact h rfl)
  | .number a, .number b =>
    if h : a = b then isTrue (h ▸ rfl) else isFalse (fun e => by cases e; exact h rfl)
  | .string a, .string b =>
    if h : a = b then isTrue (h ▸ rfl) else isFalse (fun e => by cases e; exact h rfl)
  | .list xs, .list ys => match decEqList xs ys with
    | isTrue h => isTrue (h ▸ rfl)
    | isFalse h => isFalse (fun e => by cases e; exact h rfl)
  | .mapping xs, .mapping ys => match decEqEntries xs ys with
    | isTrue h => isTrue (h ▸ rfl)
    | isFalse h => isFalse (fun e => by cases e; exact h rfl)
  | .null, .bool _ | .null, .number _ | .null, .string _ | .null, .list _ | .null, .mapping _
  | .bool _, .null | .bool _, .number _ | .bool _, .string _ | .bool _, .list _
  | .bool _, .mapping _ | .number _, .null | .number _, .bool _ | .number _, .string _
  | .number _, .list _ | .number _, .mapping _ | .string _, .null | .string _, .bool _
  | .string _, .number _ | .string _, .list _ | .string _, .mapping _ | .list _, .null
  | .list _, .bool _ | .list _, .number _ | .list _, .string _ | .list _, .mapping _
  | .mapping _, .null | .mapping _, .bool _ | .mapping _, .number _ | .mapping _, .string _
  | .mapping _, .list _ => isFalse (fun e => by cases e)

/-- Whether two lists of values are the same. -/
def decEqList : (a b : List Value) → Decidable (a = b)
  | [], [] => isTrue rfl
  | [], _ :: _ => isFalse (fun e => by cases e)
  | _ :: _, [] => isFalse (fun e => by cases e)
  | x :: xs, y :: ys => match decEq x y, decEqList xs ys with
    | isTrue h, isTrue h' => isTrue (by rw [h, h'])
    | isFalse h, _ => isFalse (fun e => by cases e; exact h rfl)
    | isTrue _, isFalse h => isFalse (fun e => by cases e; exact h rfl)

/-- Whether two ascending lists of entries are the same. -/
def decEqEntries : {b : Option String} → (x y : Ascending Value b) → Decidable (x = y)
  | _, .nil, .nil => isTrue rfl
  | _, .nil, .cons .. => isFalse (fun e => by cases e)
  | _, .cons .., .nil => isFalse (fun e => by cases e)
  | _, .cons k v h rest, .cons l w hl rest' =>
    if hk : k = l then
      match decEq v w, decEqEntries rest (hk ▸ rest') with
      | isTrue hv, isTrue hr => isTrue (by subst hk; subst hv; rw [hr])
      | isFalse hv, _ => isFalse (fun e => by cases e; exact hv rfl)
      | isTrue _, isFalse hr => isFalse (fun e => by cases e; exact hr rfl)
    else isFalse (fun e => by cases e; exact hk rfl)

end

instance : DecidableEq Value := decEq

instance {b : Option String} : DecidableEq (Ascending Value b) := decEqEntries

mutual

/-- Equal as data: like equality, but the two zeros among the binary numbers are
the same number. -/
def dataEq : Value → Value → Bool
  | .null, .null => true
  | .bool a, .bool b => a == b
  | .number a, .number b => a.numEq b
  | .string a, .string b => a == b
  | .list xs, .list ys => dataEqList xs ys
  | .mapping xs, .mapping ys => dataEqEntries xs ys
  | _, _ => false

/-- Equal as data, element by element. -/
def dataEqList : List Value → List Value → Bool
  | [], [] => true
  | x :: xs, y :: ys => dataEq x y && dataEqList xs ys
  | _, _ => false

/-- Equal as data, entry by entry. -/
def dataEqEntries : {b c : Option String} → Ascending Value b → Ascending Value c → Bool
  | _, _, .nil, .nil => true
  | _, _, .cons k v _ rest, .cons l w _ rest' => k == l && dataEq v w && dataEqEntries rest rest'
  | _, _, _, _ => false

end

end Value

end Pipeline
