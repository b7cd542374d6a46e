import Mathlib.Data.List.Forall2
import Mathlib.Data.List.TakeWhile
import Pipeline.Action.RenameQuery

/-!
# The grammar of rename queries

What a query looks like, said without the reader.  Its *parts* are the texts between its
semicolons (`IsParts`).  A part is well formed when it has the pointer in one place only
(`OnePointer`), and then it stands for the rename between the names on its two sides, without
the blanks around them (`Reads`).

The reader cuts a part at its pointers.  Two pointers never overlap, so that a text cut at any
pointer falls into the pieces of what is in front of it and those of what follows
(`pieces_append`), and two pieces mean one pointer (`pieces_eq_pair_iff`).
-/

namespace Pipeline

namespace RenameQuery

/-! ## The grammar -/

/-- The text is the parts with semicolons between them. -/
structure IsParts (text : String) (parts : List String) : Prop where
  joined : ";".intercalate parts = text
  nonempty : parts ≠ []
  closed : ∀ part ∈ parts, ';' ∉ part.toList

/-- The part has a pointer in one place only. -/
def OnePointer (part : String) : Prop :=
  ∃! sides : String × String, part = sides.1 ++ "<-" ++ sides.2

/-- Nothing but blanks. -/
def Blank (text : String) : Prop := ∀ c ∈ text.toList, isBlank c = true

-- By name, since a search may find the instance that tries all characters.
instance (text : String) : Decidable (Blank text) :=
  List.decidableBAll (fun c => isBlank c = true) text.toList

/-- There is no blank at the ends. -/
structure Bare (name : String) : Prop where
  first : ∀ c ∈ name.toList.head?, isBlank c = false
  last : ∀ c ∈ name.toList.getLast?, isBlank c = false

/-- The side of a pointer is the name with blanks around it. -/
def Padded (side name : String) : Prop :=
  ∃ before after, Blank before ∧ Blank after ∧ side = before ++ name ++ after

/-- The part is the new name, a pointer and the old name, with blanks around the names. -/
def Written (part : String) (rename : Rename) : Prop :=
  ∃ left right, part = left ++ "<-" ++ right ∧ Padded left rename.new ∧ Padded right rename.old

/-- The part stands for the rename. -/
structure Reads (part : String) (rename : Rename) : Prop where
  onePointer : OnePointer part
  written : Written part rename
  new : Bare rename.new
  old : Bare rename.old

/-- The part is the first that has not one pointer. -/
def FirstMalformed (parts : List String) (part : String) : Prop :=
  ∃ before after, parts = before ++ part :: after ∧ (∀ earlier ∈ before, OnePointer earlier) ∧
    ¬ OnePointer part

/-- The name can be written in a query. -/
structure Plain (name : String) : Prop where
  bare : Bare name
  noSemicolon : ';' ∉ name.toList
  noPointer : ¬ ∃ left right, name = left ++ "<-" ++ right

/-! ## Parts -/

theorem consHead_of_ne_nil (c : Char) {ps : List (List Char)} (h : ps ≠ []) :
    consHead c ps = ps.modifyHead (c :: ·) := by
  cases ps with
  | nil => exact absurd rfl h
  | cons piece rest => rfl

theorem consHead_ne_nil (c : Char) (ps : List (List Char)) : consHead c ps ≠ [] := by
  cases ps <;> simp [consHead]

theorem parts_eq_splitOn (cs : List Char) : parts cs = cs.splitOn ';' := by
  induction cs with
  | nil => rfl
  | cons c rest ih =>
    rw [parts, ih, consHead_of_ne_nil c (List.splitOn_ne_nil _ _),
      List.splitOn_cons_eq_if_modifyHead]
    by_cases h : c = ';' <;> simp [h]

theorem not_mem_of_mem_parts {cs part : List Char} (h : part ∈ parts cs) : ';' ∉ part := by
  induction cs generalizing part with
  | nil => simp_all [parts]
  | cons c rest ih =>
    rw [parts] at h
    split at h
    · rcases List.mem_cons.mp h with rfl | h
      · simp
      · exact ih h
    · next hc =>
      cases hrest : parts rest with
      | nil =>
        rw [hrest] at h
        rcases List.mem_singleton.mp h with rfl
        simpa using fun hsemicolon => hc hsemicolon.symm
      | cons piece pieces =>
        rw [hrest] at h ih
        rcases List.mem_cons.mp h with rfl | h
        · simpa using ⟨fun hsemicolon => hc hsemicolon.symm, ih (.head _)⟩
        · exact ih (.tail _ h)

/-- The reader finds the parts of a text. -/
theorem isParts_iff (text : String) (ps : List String) :
    IsParts text ps ↔ ps.map String.toList = parts text.toList := by
  rw [parts_eq_splitOn]
  constructor
  · intro h
    rw [← h.joined, String.toList_intercalate]
    refine (List.splitOn_intercalate ';' ?_ ?_).symm
    · simpa using h.closed
    · simpa using h.nonempty
  · intro h
    refine ⟨?_, ?_, fun part hmem => ?_⟩
    · rw [← String.toList_inj, String.toList_intercalate, h]
      exact List.intercalate_splitOn ';'
    · rintro rfl
      exact List.splitOn_ne_nil _ _ h.symm
    · rw [← parts_eq_splitOn] at h
      exact not_mem_of_mem_parts (h ▸ List.mem_map_of_mem hmem)

/-! ## Pointers -/

theorem pieces_ne_nil (cs : List Char) : pieces cs ≠ [] := by
  fun_induction pieces cs with
  | case1 => simp
  | case2 rest ih => simp
  | case3 c rest _ ih => exact consHead_ne_nil c _

/-- A character that starts no pointer belongs to the first piece. -/
theorem pieces_cons {c : Char} {rest : List Char}
    (h : ∀ tail, c = '<' → rest = '-' :: tail → False) :
    pieces (c :: rest) = consHead c (pieces rest) := by
  rw [pieces]
  exact h

/-- The pieces of a text that goes on after a pointer. -/
theorem pieces_append (left right : List Char) :
    pieces (left ++ '<' :: '-' :: right) = pieces left ++ pieces right := by
  fun_induction pieces left with
  | case1 => rfl
  | case2 rest ih => simp [pieces, ih]
  | case3 c rest hc ih =>
    -- The first character starts no pointer, also when the one that follows is next to it.
    have hstart : ∀ tail, c = '<' → rest ++ '<' :: '-' :: right = '-' :: tail → False := by
      intro tail hlt htail
      cases rest with
      | nil => simp at htail
      | cons d rest =>
        obtain ⟨rfl, -⟩ := List.cons.inj htail
        exact hc rest hlt rfl
    obtain ⟨piece, others, hrest⟩ := List.exists_cons_of_ne_nil (pieces_ne_nil rest)
    rw [List.cons_append, pieces_cons hstart, ih, hrest]
    rfl

/-- A text is its pieces with pointers between them. -/
theorem intercalate_pieces (cs : List Char) : ['<', '-'].intercalate (pieces cs) = cs := by
  fun_induction pieces cs with
  | case1 => rfl
  | case2 rest ih =>
    obtain ⟨piece, others, hrest⟩ := List.exists_cons_of_ne_nil (pieces_ne_nil rest)
    rw [hrest] at ih
    simp [hrest, List.intercalate_cons_cons, ih]
  | case3 c rest _ ih =>
    obtain ⟨piece, others, hrest⟩ := List.exists_cons_of_ne_nil (pieces_ne_nil rest)
    rw [hrest] at ih ⊢
    cases others with
    | nil => simpa [consHead] using ih
    | cons next others => simpa [consHead, List.intercalate_cons_cons] using ih

/-- A text is one piece, or it has a pointer. -/
theorem pieces_eq_self_or (cs : List Char) :
    pieces cs = [cs] ∨ ∃ left right, cs = left ++ '<' :: '-' :: right := by
  have hjoin := intercalate_pieces cs
  match hpieces : pieces cs with
  | [] => exact absurd hpieces (pieces_ne_nil cs)
  | [piece] =>
    rw [hpieces, List.intercalate_singleton] at hjoin
    exact .inl (by rw [hjoin])
  | piece :: next :: others =>
    rw [hpieces, List.intercalate_cons_cons] at hjoin
    exact .inr ⟨piece, ['<', '-'].intercalate (next :: others), by simp [← hjoin]⟩

/-- Two pieces mean one pointer. -/
theorem pieces_eq_pair_iff {cs left right : List Char} :
    pieces cs = [left, right] ↔ cs = left ++ '<' :: '-' :: right ∧
      ∀ left' right', cs = left' ++ '<' :: '-' :: right' → left' = left ∧ right' = right := by
  have hself {piece : List Char} {cs : List Char} (h : pieces cs = [piece]) : cs = piece := by
    rw [← intercalate_pieces cs, h, List.intercalate_singleton]
  constructor
  · intro h
    refine ⟨?_, fun left' right' hcs => ?_⟩
    · rw [← intercalate_pieces cs, h]
      simp [List.intercalate_cons_cons]
    · rw [hcs, pieces_append] at h
      obtain ⟨piece, others, hleft⟩ := List.exists_cons_of_ne_nil (pieces_ne_nil left')
      rw [hleft, List.cons_append] at h
      obtain ⟨rfl, htail⟩ := List.cons.inj h
      obtain ⟨rfl, hright⟩ | ⟨-, hright⟩ := List.append_eq_singleton_iff.mp htail
      · exact ⟨hself hleft, hself hright⟩
      · exact absurd hright (pieces_ne_nil right')
  · rintro ⟨rfl, honly⟩
    rw [pieces_append]
    -- A further pointer would be another place to cut the text.
    have hleft : pieces left = [left] := by
      refine (pieces_eq_self_or left).resolve_right ?_
      rintro ⟨a, b, hab⟩
      have hcut := (honly a (b ++ '<' :: '-' :: right) (by simp [hab])).1
      rw [← hcut] at hab
      simp at hab
    have hright : pieces right = [right] := by
      refine (pieces_eq_self_or right).resolve_right ?_
      rintro ⟨a, b, hab⟩
      have hcut := (honly (left ++ '<' :: '-' :: a) b (by simp [hab])).1
      simp at hcut
    rw [hleft, hright]
    rfl

theorem eq_pointed_iff (text left right : String) :
    text = left ++ "<-" ++ right ↔ text.toList = left.toList ++ '<' :: '-' :: right.toList := by
  rw [← String.toList_inj]
  simp

theorem exists_pointed_iff (text : String) :
    (∃ left right, text = left ++ "<-" ++ right) ↔
      ∃ left right, text.toList = left ++ '<' :: '-' :: right := by
  constructor
  · rintro ⟨left, right, h⟩
    exact ⟨_, _, (eq_pointed_iff _ _ _).mp h⟩
  · rintro ⟨left, right, h⟩
    refine ⟨String.ofList left, String.ofList right, (eq_pointed_iff _ _ _).mpr ?_⟩
    rw [h, String.toList_ofList, String.toList_ofList]

theorem onePointer_iff (part : String) :
    OnePointer part ↔ ∃ left right, pieces part.toList = [left, right] := by
  constructor
  · rintro ⟨⟨left, right⟩, hpart, honly⟩
    refine ⟨left.toList, right.toList,
      pieces_eq_pair_iff.mpr ⟨(eq_pointed_iff _ _ _).mp hpart, fun left' right' hcut => ?_⟩⟩
    have hsides := honly (String.ofList left', String.ofList right')
      ((eq_pointed_iff _ _ _).mpr (by simpa using hcut))
    obtain ⟨rfl, rfl⟩ := Prod.mk.inj hsides
    simp
  · rintro ⟨left, right, hpieces⟩
    obtain ⟨hpart, honly⟩ := pieces_eq_pair_iff.mp hpieces
    refine ⟨(String.ofList left, String.ofList right),
      (eq_pointed_iff _ _ _).mpr (by simpa using hpart), ?_⟩
    rintro ⟨left', right'⟩ hcut
    obtain ⟨rfl, rfl⟩ := honly _ _ ((eq_pointed_iff _ _ _).mp hcut)
    simp

/-- A text without pointer is one piece. -/
theorem noPointer_iff (text : String) :
    (¬ ∃ left right, text = left ++ "<-" ++ right) ↔ pieces text.toList = [text.toList] := by
  rw [exists_pointed_iff]
  constructor
  · exact (pieces_eq_self_or _).resolve_right
  · rintro h ⟨left, right, hsplit⟩
    rw [hsplit, pieces_append] at h
    obtain ⟨hnil, -⟩ | ⟨-, hnil⟩ := List.append_eq_singleton_iff.mp h
    · exact pieces_ne_nil left hnil
    · exact pieces_ne_nil right hnil

instance (name : String) : Decidable (Bare name) :=
  decidable_of_iff
      (name.toList.head?.all (!isBlank ·) ∧ name.toList.getLast?.all (!isBlank ·)) <| by
    simp only [Option.all_eq_true, Bool.not_eq_true']
    exact ⟨fun ⟨hfirst, hlast⟩ => ⟨hfirst, hlast⟩, fun ⟨hfirst, hlast⟩ => ⟨hfirst, hlast⟩⟩

instance (name : String) : Decidable (Plain name) :=
  decidable_of_iff (Bare name ∧ ';' ∉ name.toList ∧ pieces name.toList = [name.toList]) <| by
    rw [← noPointer_iff]
    exact ⟨fun ⟨hbare, hsemicolon, hpointer⟩ => ⟨hbare, hsemicolon, hpointer⟩,
      fun ⟨hbare, hsemicolon, hpointer⟩ => ⟨hbare, hsemicolon, hpointer⟩⟩

/-- Where a pointer stands in a text. -/
theorem exists_pointer_iff (cs : List Char) :
    (∃ left right, cs = left ++ '<' :: '-' :: right) ↔
      ∃ i, cs[i]? = some '<' ∧ cs[i + 1]? = some '-' := by
  constructor
  · rintro ⟨left, right, rfl⟩
    exact ⟨left.length, by simp, by simp⟩
  · rintro ⟨i, hlt, hdash⟩
    obtain ⟨hi, hlt⟩ := List.getElem?_eq_some_iff.mp hlt
    obtain ⟨hi', hdash⟩ := List.getElem?_eq_some_iff.mp hdash
    refine ⟨cs.take i, cs.drop (i + 2), ?_⟩
    rw [← hlt, ← hdash, ← List.drop_eq_getElem_cons hi', ← List.drop_eq_getElem_cons hi,
      List.take_append_drop]

theorem Blank.isBlank_of_getElem? {text : String} (h : Blank text) {i : Nat} {c : Char}
    (hc : text.toList[i]? = some c) : isBlank c = true :=
  h c (List.mem_of_getElem? hc)

/-- A name without a pointer has none with blanks around it. -/
theorem noPointer_of_padded {side name : String} (h : Padded side name)
    (hname : ¬ ∃ left right, name = left ++ "<-" ++ right) :
    ¬ ∃ left right, side = left ++ "<-" ++ right := by
  obtain ⟨before, after, hbefore, hafter, rfl⟩ := h
  rw [exists_pointed_iff, exists_pointer_iff] at hname ⊢
  rintro ⟨i, hlt, hdash⟩
  simp only [String.toList_append, List.append_assoc, List.getElem?_append] at hlt hdash
  split at hlt
  · exact absurd (hbefore.isBlank_of_getElem? hlt) (by decide)
  · split at hlt
    · rw [if_neg (by omega)] at hdash
      split at hdash
      · -- Both characters stand in the name.
        have hnext : i - before.toList.length + 1 = i + 1 - before.toList.length := by omega
        exact hname ⟨_, hlt, by rwa [hnext]⟩
      · exact absurd (hafter.isBlank_of_getElem? hdash) (by decide)
    · exact absurd (hafter.isBlank_of_getElem? hlt) (by decide)

/-! ## Blanks at the ends -/

theorem dropWhile_eq_self {p : Char → Bool} {cs : List Char}
    (h : ∀ c ∈ cs.head?, p c = false) : cs.dropWhile p = cs := by
  cases cs with
  | nil => rfl
  | cons c rest => rw [List.dropWhile_cons, h c rfl, if_neg Bool.false_ne_true]

/-- Trimming takes the blanks around a name, -/
theorem trim_of_padded {side name : String} (h : Padded side name) (hname : Bare name) :
    String.ofList (trim side.toList) = name := by
  obtain ⟨before, after, hbefore, hafter, rfl⟩ := h
  have htrim : trim (before.toList ++ (name.toList ++ after.toList)) = name.toList := by
    rw [trim, List.dropWhile_append_of_pos hbefore]
    cases hcs : name.toList with
    | nil =>
      rw [List.nil_append, List.dropWhile_eq_nil_iff.mpr hafter]
      rfl
    | cons c rest =>
      have hfirst : isBlank c = false := hname.first c (by rw [hcs]; rfl)
      have hlast : ∀ d ∈ (c :: rest).reverse.head?, isBlank d = false := by
        rw [List.head?_reverse, ← hcs]
        exact hname.last
      rw [List.cons_append, List.dropWhile_cons, hfirst, if_neg Bool.false_ne_true,
        ← List.cons_append, List.reverse_append,
        List.dropWhile_append_of_pos fun d hd => hafter d (List.mem_reverse.mp hd),
        dropWhile_eq_self hlast, List.reverse_reverse]
  rw [String.toList_append, String.toList_append, List.append_assoc, htrim, String.ofList_toList]

/-- and leaves a name. -/
theorem padded_trim (side : String) :
    Padded side (String.ofList (trim side.toList)) ∧ Bare (String.ofList (trim side.toList)) := by
  generalize hrest : side.toList.dropWhile isBlank = rest
  have htrim : trim side.toList = (rest.reverse.dropWhile isBlank).reverse := by
    rw [trim, hrest]
  have hends : rest = trim side.toList ++ (rest.reverse.takeWhile isBlank).reverse := by
    rw [htrim, ← List.reverse_append, List.takeWhile_append_dropWhile, List.reverse_reverse]
  have hside : side.toList = side.toList.takeWhile isBlank ++ rest := by
    rw [← hrest, List.takeWhile_append_dropWhile]
  constructor
  · refine ⟨String.ofList (side.toList.takeWhile isBlank),
      String.ofList (rest.reverse.takeWhile isBlank).reverse, ?_, ?_, ?_⟩
    · intro c hmem
      rw [String.toList_ofList] at hmem
      exact List.mem_takeWhile_imp hmem
    · intro c hmem
      rw [String.toList_ofList, List.mem_reverse] at hmem
      exact List.mem_takeWhile_imp hmem
    · rw [← String.toList_inj]
      simp only [String.toList_append, String.toList_ofList]
      rw [List.append_assoc, ← hends, ← hside]
  · constructor
    · intro c hc
      rw [String.toList_ofList, Option.mem_def] at hc
      have hfirst : rest.head? = some c := by
        rw [hends, List.head?_append, hc]
        rfl
      have hstop := List.head?_dropWhile_not isBlank side.toList
      rw [hrest, hfirst] at hstop
      exact hstop
    · intro c hc
      rw [String.toList_ofList, htrim, List.getLast?_reverse, Option.mem_def] at hc
      have hstop := List.head?_dropWhile_not isBlank rest.reverse
      rw [hc] at hstop
      exact hstop

/-! ## The reader -/

theorem parsePart_of_pieces {part left right : List Char} (h : pieces part = [left, right]) :
    parsePart part = .ok ⟨String.ofList (trim right), String.ofList (trim left)⟩ := by
  rw [parsePart, h]

theorem parsePart_of_not_onePointer {part : String} (h : ¬ OnePointer part) :
    parsePart part.toList = .error (.invalidQuery part) := by
  rw [onePointer_iff] at h
  unfold parsePart
  split
  · next left right hpieces => exact absurd ⟨left, right, hpieces⟩ h
  · rw [String.ofList_toList]

/-- A part is read as the rename that it stands for. -/
theorem parsePart_eq_ok_iff (part : String) (rename : Rename) :
    parsePart part.toList = .ok rename ↔ Reads part rename := by
  constructor
  · intro h
    by_cases hone : OnePointer part
    · obtain ⟨left, right, hpieces⟩ := (onePointer_iff part).mp hone
      have hpart := (pieces_eq_pair_iff.mp hpieces).1
      rw [parsePart_of_pieces hpieces] at h
      cases h
      have hleft := padded_trim (String.ofList left)
      have hright := padded_trim (String.ofList right)
      rw [String.toList_ofList] at hleft hright
      refine ⟨hone, ⟨String.ofList left, String.ofList right, ?_, hleft.1, hright.1⟩, hleft.2,
        hright.2⟩
      rw [eq_pointed_iff, hpart, String.toList_ofList, String.toList_ofList]
    · rw [parsePart_of_not_onePointer hone] at h
      cases h
  · rintro ⟨hone, ⟨left, right, rfl, hleft, hright⟩, hnew, hold⟩
    obtain ⟨left', right', hpieces⟩ := (onePointer_iff _).mp hone
    obtain ⟨rfl, rfl⟩ := (pieces_eq_pair_iff.mp hpieces).2 left.toList right.toList (by simp)
    rw [parsePart_of_pieces hpieces, trim_of_padded hleft hnew, trim_of_padded hright hold]

/-- The parts are read one after another. -/
theorem parseParts_eq_ok_iff (ps : List String) (renames : List Rename) :
    parseParts (ps.map String.toList) = .ok renames ↔ List.Forall₂ Reads ps renames := by
  induction ps generalizing renames with
  | nil => cases renames <;> simp [parseParts]
  | cons part rest ih =>
    rw [List.map_cons, parseParts]
    cases hpart : parsePart part.toList with
    | error error =>
      have hnone (rename : Rename) : ¬ Reads part rename := by
        rw [← parsePart_eq_ok_iff, hpart]
        exact nofun
      cases renames <;> simp [bind, Except.bind, hnone]
    | ok rename =>
      have hread := (parsePart_eq_ok_iff part rename).mp hpart
      have honly (other : Rename) : Reads part other ↔ rename = other := by
        rw [← parsePart_eq_ok_iff, hpart, Except.ok.injEq]
      cases hrest : parseParts (rest.map String.toList) with
      | error error => cases renames <;> simp [bind, Except.bind, ← ih, hrest]
      | ok others => cases renames <;> simp [bind, Except.bind, ← ih, hrest, honly]

theorem firstMalformed_cons {first part : String} {rest : List String} :
    FirstMalformed (first :: rest) part ↔
      (¬ OnePointer first ∧ part = first) ∨ (OnePointer first ∧ FirstMalformed rest part) := by
  constructor
  · rintro ⟨before, after, hsplit, hbefore, hpart⟩
    cases before with
    | nil =>
      obtain ⟨rfl, rfl⟩ := List.cons.inj hsplit
      exact .inl ⟨hpart, rfl⟩
    | cons earlier before =>
      obtain ⟨rfl, rfl⟩ := List.cons.inj hsplit
      exact .inr ⟨hbefore _ (.head _), before, after, rfl, fun _ h => hbefore _ (.tail _ h), hpart⟩
  · rintro (⟨hfirst, rfl⟩ | ⟨hfirst, before, after, rfl, hbefore, hpart⟩)
    · exact ⟨[], rest, rfl, nofun, hfirst⟩
    · exact ⟨first :: before, after, rfl, List.forall_mem_cons.mpr ⟨hfirst, hbefore⟩, hpart⟩

/-- Reading stops at the first part that has not one pointer. -/
theorem parseParts_eq_error_iff (ps : List String) (error : ExecutionError) :
    parseParts (ps.map String.toList) = .error error ↔
      ∃ part, FirstMalformed ps part ∧ error = .invalidQuery part := by
  induction ps with
  | nil => simp [parseParts, FirstMalformed]
  | cons first rest ih =>
    rw [List.map_cons, parseParts]
    by_cases hfirst : OnePointer first
    · obtain ⟨left, right, hpieces⟩ := (onePointer_iff first).mp hfirst
      rw [parsePart_of_pieces hpieces]
      simp only [firstMalformed_cons, hfirst, not_true, false_and, false_or, true_and, ← ih]
      cases parseParts (rest.map String.toList) <;> simp [bind, Except.bind]
    · rw [parsePart_of_not_onePointer hfirst]
      simp [bind, Except.bind, firstMalformed_cons, hfirst, eq_comm]

/-! ## Queries -/

section

variable {text : String} {ps : List String}

theorem exists_isParts (text : String) : ∃ ps, IsParts text ps := by
  refine ⟨(parts text.toList).map String.ofList, (isParts_iff _ _).mpr ?_⟩
  simp [List.map_map, Function.comp_def]

theorem IsParts.unique {ps' : List String} (h : IsParts text ps) (h' : IsParts text ps') :
    ps' = ps := by
  rw [isParts_iff] at h h'
  exact List.map_injective_iff.mpr (fun _ _ => String.toList_inj.mp) (h'.trans h.symm)

theorem parse_eq_ok_iff (h : IsParts text ps) (query : RenameQuery) :
    parse text = .ok query ↔ query.text = text ∧ List.Forall₂ Reads ps query.renames := by
  rw [parse, ← (isParts_iff text ps).mp h, ← parseParts_eq_ok_iff]
  obtain ⟨text', renames⟩ := query
  cases parseParts (ps.map String.toList) <;> simp [bind, Except.bind, eq_comm]

theorem parse_eq_error_iff (h : IsParts text ps) (error : ExecutionError) :
    parse text = .error error ↔ ∃ part, FirstMalformed ps part ∧ error = .invalidQuery part := by
  rw [parse, ← (isParts_iff text ps).mp h, ← parseParts_eq_error_iff]
  cases parseParts (ps.map String.toList) <;> simp [bind, Except.bind]

/-- A query has a rename. -/
theorem renames_ne_nil_of_parse {query : RenameQuery} (h : parse text = .ok query) :
    query.renames ≠ [] := by
  obtain ⟨ps, hparts⟩ := exists_isParts text
  intro hnil
  have hread := ((parse_eq_ok_iff hparts query).mp h).2
  rw [hnil] at hread
  exact hparts.nonempty (List.forall₂_nil_right_iff.mp hread)

theorem not_mem_of_padded {side name : String} (h : Padded side name) (hname : ';' ∉ name.toList) :
    ';' ∉ side.toList := by
  obtain ⟨before, after, hbefore, hafter, rfl⟩ := h
  have hblank {blanks : String} (hb : Blank blanks) : ';' ∉ blanks.toList :=
    fun hmem => absurd (hb _ hmem) (by decide)
  simp [hblank hbefore, hblank hafter, hname]

/-- A rename is read back from a way to write it, in which no semicolon stands. -/
theorem reads_of_written {part : String} {rename : Rename} (h : Written part rename)
    (hold : Plain rename.old) (hnew : Plain rename.new) :
    Reads part rename ∧ ';' ∉ part.toList := by
  obtain ⟨left, right, rfl, hleft, hright⟩ := h
  have hone : OnePointer (left ++ "<-" ++ right) := by
    refine (onePointer_iff _).mpr ⟨left.toList, right.toList, ?_⟩
    rw [(eq_pointed_iff _ left right).mp rfl, pieces_append,
      (noPointer_iff _).mp (noPointer_of_padded hleft hnew.noPointer),
      (noPointer_iff _).mp (noPointer_of_padded hright hold.noPointer)]
    rfl
  refine ⟨⟨hone, ⟨left, right, rfl, hleft, hright⟩, hnew.bare, hold.bare⟩, ?_⟩
  simp [not_mem_of_padded hleft hnew.noSemicolon, not_mem_of_padded hright hold.noSemicolon]

theorem forall₂_reads_of_written {renames : List Rename} (h : List.Forall₂ Written ps renames)
    (hplain : ∀ rename ∈ renames, Plain rename.old ∧ Plain rename.new) :
    (∀ part ∈ ps, ';' ∉ part.toList) ∧ List.Forall₂ Reads ps renames := by
  rw [← List.forall₂_and_left]
  induction h with
  | nil => exact .nil
  | cons hwritten _ ih =>
    obtain ⟨⟨hold, hnew⟩, hrest⟩ := List.forall_mem_cons.mp hplain
    exact .cons (reads_of_written hwritten hold hnew).symm (ih hrest)

end

end RenameQuery

open RenameQuery

/-- A text has its parts between semicolons in one way.  It is a query just when each of them has
one pointer, and the query has the renames that the parts stand for, in order.  The error of
any other text names its first part that has not one pointer, as it stands in the text.

Conversely, renames whose names can be written are read back from every way to write them, with
semicolons between them and any blanks around the names. -/
theorem queries_follow_grammar :
    (∀ text, ∃ ps, IsParts text ps ∧ (∀ ps', IsParts text ps' → ps' = ps) ∧
      ((∃ query, parse text = .ok query) ↔ ∀ part ∈ ps, OnePointer part) ∧
      (∀ query, parse text = .ok query ↔
        query.text = text ∧ List.Forall₂ Reads ps query.renames) ∧
      ∀ error, parse text = .error error ↔
        ∃ part, FirstMalformed ps part ∧ error = .invalidQuery part) ∧
    ∀ renames ps, renames ≠ [] → (∀ rename ∈ renames, Plain rename.old ∧ Plain rename.new) →
      List.Forall₂ Written ps renames →
      parse (";".intercalate ps) = .ok ⟨";".intercalate ps, renames⟩ := by
  constructor
  · intro text
    obtain ⟨ps, hparts⟩ := exists_isParts text
    refine ⟨ps, hparts, fun ps' => hparts.unique, ⟨?_, fun hone => ?_⟩, parse_eq_ok_iff hparts,
      parse_eq_error_iff hparts⟩
    · rintro ⟨query, hquery⟩ part hmem
      have hread := ((parse_eq_ok_iff hparts query).mp hquery).2
      have hboth := hread.imp fun _ _ h => And.intro h.onePointer h
      exact ((List.forall₂_and_left _ _).mp hboth).1 part hmem
    · cases hparse : parse text with
      | ok query => exact ⟨query, rfl⟩
      | error error =>
        obtain ⟨part, ⟨before, after, rfl, -, hpart⟩, -⟩ :=
          (parse_eq_error_iff hparts error).mp hparse
        exact absurd (hone part (by simp)) hpart
  · intro renames ps hne hplain hwritten
    obtain ⟨hclosed, hreads⟩ := forall₂_reads_of_written hwritten hplain
    have hparts : IsParts (";".intercalate ps) ps := by
      refine ⟨rfl, ?_, hclosed⟩
      rintro rfl
      exact hne (List.forall₂_nil_left_iff.mp hwritten)
    exact (parse_eq_ok_iff hparts _).mpr ⟨rfl, hreads⟩

/-- A new name that ends like a pointer starts, an old name that starts like one ends, and an empty
name. -/
def oddRenames : List Rename := [⟨"-b", "a<"⟩, ⟨"", "c d"⟩]

theorem oddRenames_follow_grammar :
    oddRenames ≠ [] ∧ (∀ rename ∈ oddRenames, Plain rename.old ∧ Plain rename.new) ∧
    List.Forall₂ Written ["a<<--b", " c d <-"] oddRenames ∧
    parse "a<<--b; c d <-" = .ok ⟨"a<<--b; c d <-", oddRenames⟩ := by
  have hne : oddRenames ≠ [] := by decide
  have hplain : ∀ rename ∈ oddRenames, Plain rename.old ∧ Plain rename.new := by decide
  have hempty : Blank "" := by decide
  have hspace : Blank " " := by decide
  have hwritten : List.Forall₂ Written ["a<<--b", " c d <-"] oddRenames := by
    refine .cons ⟨"a<", "-b", rfl, ⟨"", "", hempty, hempty, rfl⟩, ⟨"", "", hempty, hempty, rfl⟩⟩ ?_
    exact .cons ⟨" c d ", "", rfl, ⟨" ", " ", hspace, hspace, rfl⟩, ⟨"", "", hempty, hempty, rfl⟩⟩
      .nil
  have hparse := queries_follow_grammar.2 oddRenames _ hne hplain hwritten
  have hjoin : ";".intercalate ["a<<--b", " c d <-"] = "a<<--b; c d <-" := by decide
  rw [hjoin] at hparse
  exact ⟨hne, hplain, hwritten, hparse⟩

end Pipeline
