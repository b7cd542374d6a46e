import Pipeline.Proofs.Dict
import Pipeline.Proofs.Sequences
import Pipeline.Stock.Executable
import Pipeline.Stock.Predicate

/-!
# Filters one after another

A filter asks its predicate about the elements of a list, one after another (`Keeps`).  When it
succeeds it keeps some of them, in order and as they are, whatever the predicate does.

When the answers depend on the element alone, they settle what is kept: `Selects` relates a list
to what is kept of it, and no world occurs in it.  Two filters on one key then fuse into one
whose predicate is the conjunction (`selects_all_iff`), although the two ask their predicates in
another order than the one.
-/

namespace Pipeline

/-! ## What a filter does -/

/-- The list with the element in front if that is kept. -/
def keepIf (keep : Bool) (element : Record) (kept : List Value) : List Value :=
  if keep then .mapping element :: kept else kept

/-- The predicate is asked about the elements of a list, one after another: what is kept of the
list or the error of the first element that is no mapping or about which the predicate fails. -/
inductive Keeps (p : Predicate) (e : Evaluator) :
    List Value → World → Except ExecutionError (List Value) → World → Prop
  | nil {w : World} : Keeps p e [] w (.ok []) w
  | notMapping {item : Value} {rest : List Value} {w : World} {error : ExecutionError} :
      item.expectRecord = .error error → Keeps p e (item :: rest) w (.error error) w
  | failed {element : Record} {rest : List Value} {w u : World} {error : ExecutionError}
      {events : List Event} :
      Decides (some p) e element w ⟨.error error, events, u⟩ →
        Keeps p e (.mapping element :: rest) w (.error error) u
  | asked {element : Record} {rest : List Value} {w u v : World} {keep : Bool}
      {events : List Event} {answer : Except ExecutionError (List Value)} :
      Decides (some p) e element w ⟨.ok keep, events, u⟩ →
        Keeps p e rest u answer v →
        Keeps p e (.mapping element :: rest) w (answer.map (keepIf keep element)) v

section

variable {p : Predicate} {e : Evaluator} {items : List Value} {w w' : World}
variable {answer : Except ExecutionError (List Value)}

theorem keepEach_of_notMapping {item : Value} {error : ExecutionError}
    (h : item.expectRecord = .error error) (test : Record → Course Bool) (rest : List Value)
    (w : World) : keepEach test (item :: rest) w = some ⟨.error error, [], w⟩ := by
  rw [keepEach, h]
  rfl

theorem keepEach_mapping (test : Record → Course Bool) (element : Record) (rest : List Value) :
    keepEach test (.mapping element :: rest) = (do
      let keep ← test element
      let kept ← keepEach test rest
      pure (keepIf keep element kept)) :=
  Process.pure_bind element _

theorem keepEach_of_ok {test : Record → Course Bool} {element : Record} {keep : Bool}
    {events : List Event} (h : test element w = some ⟨.ok keep, events, w'⟩)
    (rest : List Value) :
    keepEach test (.mapping element :: rest) w = (keepEach test rest w').map fun z =>
      ⟨z.result.map (keepIf keep element), events ++ z.events, z.state⟩ := by
  rw [keepEach_mapping, Process.bind_of_ok h, Process.bind_pure_apply, Option.map_map]
  rfl

theorem keepEach_of_le {n m : Nat} (hnm : n ≤ m) {z : Run World ExecutionError (List Value)}
    (h : keepEach (fun r => p.check n e r) items w = some z) :
    keepEach (fun r => p.check m e r) items w = some z := by
  have hextends (r : Record) : Extends (p.check n e r) (p.check m e r) := by
    intro w z (h : holds n (some p) e r w = some z)
    exact holds_of_le hnm h
  exact (Extends.simulation hnm).kept hextends items h

theorem keeps_of_keepEach {n : Nat} {events : List Event}
    (h : keepEach (fun r => p.check n e r) items w = some ⟨answer, events, w'⟩) :
    Keeps p e items w answer w' := by
  induction items generalizing w answer events with
  | nil =>
    cases h
    exact .nil
  | cons item rest ih =>
    cases hitem : item.expectRecord with
    | error error =>
      cases (keepEach_of_notMapping hitem _ rest w).symm.trans h
      exact .notMapping hitem
    | ok element =>
      cases Value.eq_of_expectRecord hitem
      rcases hcheck : p.check n e element w with _ | ⟨error | keep, asked, u⟩
      · rw [keepEach_mapping, Process.bind_of_none hcheck] at h
        cases h
      · rw [keepEach_mapping, Process.bind_of_error hcheck] at h
        cases h
        exact .failed ⟨n, hcheck⟩
      · rw [keepEach_of_ok hcheck] at h
        obtain ⟨z, hrest, hz⟩ := Option.map_eq_some_iff.mp h
        cases hz
        exact .asked ⟨n, hcheck⟩ (ih hrest)

/-- With enough rounds the filter does so. -/
theorem Keeps.keepEach (h : Keeps p e items w answer w') :
    ∃ n events, keepEach (fun r => p.check n e r) items w = some ⟨answer, events, w'⟩ := by
  induction h with
  | nil => exact ⟨0, [], rfl⟩
  | notMapping hitem => exact ⟨0, [], keepEach_of_notMapping hitem _ _ _⟩
  | @failed element rest w u error events hcheck =>
    obtain ⟨n, hcheck⟩ := hcheck
    refine ⟨n, events, ?_⟩
    rw [keepEach_mapping]
    exact Process.bind_of_error hcheck
  | @asked element rest w u v keep events answer hcheck _ ih =>
    obtain ⟨n, hcheck⟩ := hcheck
    obtain ⟨m, later, hrest⟩ := ih
    have hcheck : p.check (max n m) e element w = some ⟨.ok keep, events, u⟩ :=
      holds_of_le (Nat.le_max_left n m) hcheck
    refine ⟨max n m, events ++ later, ?_⟩
    rw [keepEach_of_ok hcheck, keepEach_of_le (Nat.le_max_right n m) hrest]
    rfl

/-- What is kept are some of the elements, in order and as they are. -/
theorem Keeps.sublist {kept : List Value} (h : Keeps p e items w (.ok kept) w') :
    kept.Sublist items := by
  generalize hanswer : Except.ok kept = answer at h
  induction h generalizing kept with
  | nil =>
    cases hanswer
    exact .slnil
  | notMapping | failed => cases hanswer
  | @asked element rest w u v keep events answer _ _ ih =>
    cases answer with
    | error error => cases hanswer
    | ok others =>
      cases hanswer
      cases keep with
      | true => exact (ih rfl).cons_cons _
      | false => exact (ih rfl).cons _

end

section

variable {name getKey setKey : String} {p : Predicate} {e : Evaluator} {register : Record}
variable {w w' : World}

/-- What a filter does with the list at its key. -/
theorem run_filter_apply (n : Nat) (name : String) (p : Predicate) (getKey setKey : String)
    (e : Evaluator) (register : Record) (w : World) :
    (Component.filter name p getKey setKey).run n e register w =
      match listAt register getKey with
      | .ok items => (keepEach (fun r => p.check n e r) items w).map fun z =>
        ⟨z.result.map fun kept => .next (register.insert setKey (.list kept)), z.events, z.state⟩
      | .error error => some ⟨.error error, [], w⟩ := by
  refine (Process.ofExcept_bind (listAt register getKey) _ w).trans ?_
  cases listAt register getKey with
  | error error => rfl
  | ok items => exact Process.bind_pure_apply _ _ w

/-- A filter whose key has no list fails. -/
theorem filter_ends_of_error {error : ExecutionError}
    (hlist : listAt register getKey = .error error) :
    (Component.filter name p getKey setKey).Ends e register w (.error error) w :=
  ⟨[], 0, by rw [run_filter_apply, hlist]⟩

/-- Any other filter writes down what is kept of the list. -/
theorem filter_ends_iff {items : List Value} (hlist : listAt register getKey = .ok items)
    {result : Except ExecutionError Outcome} :
    (Component.filter name p getKey setKey).Ends e register w result w' ↔
      ∃ answer, Keeps p e items w answer w' ∧
        result = answer.map fun kept => .next (register.insert setKey (.list kept)) := by
  constructor
  · rintro ⟨events, n, hrun⟩
    rw [run_filter_apply, hlist] at hrun
    obtain ⟨z, hkeep, hz⟩ := Option.map_eq_some_iff.mp hrun
    cases hz
    exact ⟨z.result, keeps_of_keepEach hkeep, rfl⟩
  · rintro ⟨answer, hkeeps, rfl⟩
    obtain ⟨n, events, hkeep⟩ := hkeeps.keepEach
    refine ⟨events, n, ?_⟩
    rw [run_filter_apply, hlist]
    dsimp only
    rw [hkeep]
    rfl

/-- A filter that succeeds found a list, and gives the register with what is kept of it. -/
theorem filter_ends_ok_iff {outcome : Outcome} :
    (Component.filter name p getKey setKey).Ends e register w (.ok outcome) w' ↔
      ∃ items kept, listAt register getKey = .ok items ∧ Keeps p e items w (.ok kept) w' ∧
        outcome = .next (register.insert setKey (.list kept)) := by
  cases hlist : listAt register getKey with
  | error error =>
    refine iff_of_false (fun h => ?_) (by rintro ⟨_, _, h, _⟩; cases h)
    cases (h.unique (filter_ends_of_error hlist)).1
  | ok items =>
    rw [filter_ends_iff hlist]
    constructor
    · rintro ⟨error | kept, hkeeps, h⟩
      · cases h
      · cases h
        exact ⟨items, kept, rfl, hkeeps, rfl⟩
    · rintro ⟨_, kept, h, hkeeps, rfl⟩
      cases h
      exact ⟨.ok kept, hkeeps, rfl⟩

end

/-! ## Answers that depend on the element alone -/

/-- In every world the predicate gives the answer about the element. -/
def Predicate.Answers (p : Predicate) (e : Evaluator) (element : Record) (b : Bool) : Prop :=
  ∀ w, ∃ events w', Decides (some p) e element w ⟨.ok b, events, w'⟩

/-- What the predicate answers depends on the element alone: an answer that it gives in one
world, it gives in all. -/
def Predicate.OfElementAlone (p : Predicate) (e : Evaluator) : Prop :=
  ∀ {element w b events w'}, Decides (some p) e element w ⟨.ok b, events, w'⟩ →
    p.Answers e element b

/-- The predicate always answers. -/
def Predicate.NeverFails (p : Predicate) (e : Evaluator) : Prop :=
  ∀ element w, ∃ b events w', Decides (some p) e element w ⟨.ok b, events, w'⟩

/-- What is kept of a list by the answers about its elements. -/
inductive Selects (p : Predicate) (e : Evaluator) : List Value → List Value → Prop
  | nil : Selects p e [] []
  | cons {element : Record} {rest kept : List Value} {keep : Bool} :
      p.Answers e element keep → Selects p e rest kept →
        Selects p e (.mapping element :: rest) (keepIf keep element kept)

section

variable {p q : Predicate} {e : Evaluator} {element : Record} {items mid kept : List Value}
variable {a b : Bool} {w w' : World}

theorem Predicate.NeverFails.answers (hfails : p.NeverFails e) (hp : p.OfElementAlone e)
    (element : Record) : ∃ b, p.Answers e element b := by
  obtain ⟨b, _, _, h⟩ := hfails element World.empty
  exact ⟨b, hp h⟩

/-- A filter keeps what the answers select. -/
theorem Keeps.selects (hp : p.OfElementAlone e) (h : Keeps p e items w (.ok kept) w') :
    Selects p e items kept := by
  generalize hanswer : Except.ok kept = answer at h
  induction h generalizing kept with
  | nil =>
    cases hanswer
    exact .nil
  | notMapping | failed => cases hanswer
  | @asked element rest w u v keep events answer hcheck _ ih =>
    cases answer with
    | error error => cases hanswer
    | ok others =>
      cases hanswer
      exact .cons (hp hcheck) (ih rfl)

theorem Selects.keeps (h : Selects p e items kept) (w : World) :
    ∃ w', Keeps p e items w (.ok kept) w' := by
  induction h generalizing w with
  | nil => exact ⟨w, .nil⟩
  | cons hanswers _ ih =>
    obtain ⟨events, u, hcheck⟩ := hanswers w
    obtain ⟨w', hkeeps⟩ := ih u
    exact ⟨w', .asked hcheck hkeeps⟩

/-- Predicates with the same answers select the same. -/
theorem Selects.congr (h : ∀ element b, p.Answers e element b → q.Answers e element b)
    (hselects : Selects p e items kept) : Selects q e items kept := by
  induction hselects with
  | nil => exact .nil
  | cons hanswers _ ih => exact .cons (h _ _ hanswers) ih

/-- What a predicate selects, a predicate that always answers can select from. -/
theorem Selects.exists_of_answers (hq : ∀ element, ∃ b, q.Answers e element b)
    (h : Selects p e items mid) : ∃ kept, Selects q e mid kept := by
  induction h with
  | nil => exact ⟨[], .nil⟩
  | @cons element _ _ keep _ _ ih =>
    obtain ⟨kept, ih⟩ := ih
    cases keep with
    | false => exact ⟨kept, ih⟩
    | true =>
      obtain ⟨b, hanswers⟩ := hq element
      exact ⟨_, .cons hanswers ih⟩

/-- Everything that a predicate selects, it selects again. -/
theorem Selects.again (h : Selects p e items kept) : Selects p e kept kept := by
  induction h with
  | nil => exact .nil
  | @cons element _ _ keep hanswers _ ih =>
    cases keep with
    | false => exact ih
    | true => exact .cons hanswers ih

/-! ## Conjunctions -/

theorem check_all_pair (n : Nat) (p q : Predicate) (e : Evaluator) (element : Record) :
    (Predicate.all [p, q]).check n e element = (do
      if ← p.check n e element then
        if ← q.check n e element then pure true else pure false
      else pure false) := rfl

/-- An answer of a conjunction is a no of the first predicate or an answer of the second. -/
theorem answers_of_decides_all (hp : p.OfElementAlone e) (hq : q.OfElementAlone e)
    {events : List Event} (h : Decides (some (.all [p, q])) e element w ⟨.ok b, events, w'⟩) :
    p.Answers e element false ∧ b = false ∨ p.Answers e element true ∧ q.Answers e element b := by
  obtain ⟨n, h⟩ := h
  rw [holds, check_all_pair] at h
  obtain ⟨first, _, u, _, hfirst, h, _⟩ := Process.bind_eq_ok.mp h
  have hanswers : p.Answers e element first := hp ⟨n, hfirst⟩
  cases first with
  | false =>
    cases h
    exact .inl ⟨hanswers, rfl⟩
  | true =>
    obtain ⟨second, _, v, _, hsecond, h, _⟩ := Process.bind_eq_ok.mp h
    have hanswers' : q.Answers e element second := hq ⟨n, hsecond⟩
    cases second <;> cases h <;> exact .inr ⟨hanswers, hanswers'⟩

theorem answers_all (h : p.Answers e element false ∧ b = false ∨
    p.Answers e element true ∧ q.Answers e element b) :
    (Predicate.all [p, q]).Answers e element b := by
  intro w
  obtain ⟨hfirst, rfl⟩ | ⟨hfirst, hsecond⟩ := h
  · obtain ⟨events, u, n, hfirst⟩ := hfirst w
    refine ⟨events ++ [], u, n, ?_⟩
    rw [holds, check_all_pair]
    exact Process.bind_eq_ok.mpr ⟨false, events, u, [], hfirst, rfl, rfl⟩
  · obtain ⟨events, u, n, hfirst⟩ := hfirst w
    obtain ⟨later, v, m, hsecond⟩ := hsecond u
    have hfirst : p.check (max n m) e element w = some ⟨.ok true, events, u⟩ :=
      holds_of_le (Nat.le_max_left n m) hfirst
    have hsecond : q.check (max n m) e element u = some ⟨.ok b, later, v⟩ :=
      holds_of_le (Nat.le_max_right n m) hsecond
    refine ⟨events ++ (later ++ []), v, max n m, ?_⟩
    rw [holds, check_all_pair]
    refine Process.bind_eq_ok.mpr ⟨true, events, u, _, hfirst, ?_, rfl⟩
    refine Process.bind_eq_ok.mpr ⟨b, later, v, [], hsecond, ?_, rfl⟩
    cases b <;> rfl

theorem Predicate.OfElementAlone.all (hp : p.OfElementAlone e) (hq : q.OfElementAlone e) :
    (Predicate.all [p, q]).OfElementAlone e :=
  fun h => answers_all (answers_of_decides_all hp hq h)

theorem answers_all_iff (hp : p.OfElementAlone e) (hq : q.OfElementAlone e) :
    (Predicate.all [p, q]).Answers e element b ↔ p.Answers e element false ∧ b = false ∨
      p.Answers e element true ∧ q.Answers e element b := by
  refine ⟨fun h => ?_, answers_all⟩
  obtain ⟨_, _, h⟩ := h World.empty
  exact answers_of_decides_all hp hq h

/-- Selecting twice is selecting once with the conjunction. -/
theorem selects_all_iff (hp : p.OfElementAlone e) (hq : q.OfElementAlone e) :
    Selects (.all [p, q]) e items kept ↔ ∃ mid, Selects p e items mid ∧ Selects q e mid kept := by
  constructor
  · intro h
    induction h with
    | nil => exact ⟨[], .nil, .nil⟩
    | cons hanswers _ ih =>
      obtain ⟨mid, hfirst, hsecond⟩ := ih
      obtain ⟨hno, rfl⟩ | ⟨hyes, hanswers'⟩ := (answers_all_iff hp hq).mp hanswers
      · exact ⟨mid, .cons hno hfirst, hsecond⟩
      · exact ⟨_, .cons hyes hfirst, .cons hanswers' hsecond⟩
  · rintro ⟨mid, hfirst, hsecond⟩
    induction hfirst generalizing kept with
    | nil =>
      cases hsecond
      exact .nil
    | @cons element rest others keep hanswers _ ih =>
      cases keep with
      | false => exact .cons (answers_all (.inl ⟨hanswers, rfl⟩)) (ih hsecond)
      | true =>
        cases hsecond with
        | cons hanswers' hsecond => exact .cons (answers_all (.inr ⟨hanswers, hanswers'⟩)) (ih hsecond)

/-- Once a predicate has selected, it selects the same again. -/
theorem selects_all_self_iff (hp : p.OfElementAlone e) :
    Selects (.all [p, p]) e items kept ↔ Selects p e items kept := by
  have hanswers (element : Record) (b : Bool) :
      (Predicate.all [p, p]).Answers e element b ↔ p.Answers e element b := by
    rw [answers_all_iff hp hp]
    cases b <;> simp
  exact ⟨.congr fun element b => (hanswers element b).mp,
    .congr fun element b => (hanswers element b).mpr⟩

/-- Predicates that always answer select the same in either order. -/
theorem Selects.all_comm (hp : p.OfElementAlone e) (hq : q.OfElementAlone e)
    (hfails : q.NeverFails e) (h : Selects (.all [p, q]) e items kept) :
    Selects (.all [q, p]) e items kept := by
  refine h.congr fun element b hanswers => answers_all ?_
  obtain ⟨hno, rfl⟩ | ⟨hyes, hanswers⟩ := (answers_all_iff hp hq).mp hanswers
  · obtain ⟨second, hsecond⟩ := hfails.answers hq element
    cases second with
    | false => exact .inl ⟨hsecond, rfl⟩
    | true => exact .inr ⟨hsecond, hno⟩
  · cases b with
    | false => exact .inl ⟨hanswers, rfl⟩
    | true => exact .inr ⟨hanswers, hyes⟩

end

/-! ## Filters whose answers depend on the element alone -/

section

variable {name getKey setKey : String} {p : Predicate} {e : Evaluator} {register : Record}
variable {w : World}

/-- Such a filter succeeds with what the answers select, in any world. -/
theorem filter_succeeds_iff (hp : p.OfElementAlone e) {outcome : Outcome} :
    (∃ w', (Component.filter name p getKey setKey).Ends e register w (.ok outcome) w') ↔
      ∃ items kept, listAt register getKey = .ok items ∧ Selects p e items kept ∧
        outcome = .next (register.insert setKey (.list kept)) := by
  constructor
  · rintro ⟨w', h⟩
    obtain ⟨items, kept, hlist, hkeeps, houtcome⟩ := filter_ends_ok_iff.mp h
    exact ⟨items, kept, hlist, hkeeps.selects hp, houtcome⟩
  · rintro ⟨items, kept, hlist, hselects, houtcome⟩
    obtain ⟨w', hkeeps⟩ := hselects.keeps w
    exact ⟨w', filter_ends_ok_iff.mpr ⟨items, kept, hlist, hkeeps, houtcome⟩⟩

/-- A filter that can succeed does not fail. -/
theorem not_fails_of_selects {items kept : List Value} {error : ExecutionError} {w' : World}
    (hlist : listAt register getKey = .ok items) (h : Selects p e items kept) :
    ¬ (Component.filter name p getKey setKey).Ends e register w (.error error) w' := by
  intro hfails
  obtain ⟨u, hkeeps⟩ := h.keeps w
  have hends : (Component.filter name p getKey setKey).Ends e register w
      (.ok (.next (register.insert setKey (.list kept)))) u :=
    (filter_ends_iff hlist).mpr ⟨.ok kept, hkeeps, rfl⟩
  cases (hfails.unique hends).1

end

section

variable {first second key : String} {p q : Predicate} {e : Evaluator} {register : Record}
variable {w : World}

/-- Two such filters on one key succeed with what the conjunction selects. -/
theorem filters_succeed_iff (hfast : e.fastExit = true) (hp : p.OfElementAlone e)
    (hq : q.OfElementAlone e) {outcome : Outcome} :
    (∃ w', ((Component.filter first p key key).andThen (.filter second q key key)).Ends e register w
        (.ok outcome) w') ↔
      ∃ items kept, listAt register key = .ok items ∧ Selects (.all [p, q]) e items kept ∧
        outcome = .next (register.insert key (.list kept)) := by
  constructor
  · rintro ⟨w', h⟩
    cases (ends_pair_iff hfast).mp h with
    | exited hfirst =>
      obtain ⟨_, _, _, _, hsignal⟩ := filter_ends_ok_iff.mp hfirst
      cases hsignal
    | completed hfirst hsecond =>
      obtain ⟨items, mid, hlist, hmid, hr⟩ := (filter_succeeds_iff hp).mp ⟨_, hfirst⟩
      cases hr
      obtain ⟨_, kept, hlist', hkept, rfl⟩ := (filter_succeeds_iff hq).mp ⟨_, hsecond⟩
      cases (listAt_insert register key mid).symm.trans hlist'
      refine ⟨items, kept, hlist, (selects_all_iff hp hq).mpr ⟨mid, hmid, hkept⟩, ?_⟩
      rw [Ascending.insert_insert]
  · rintro ⟨items, kept, hlist, hselects, rfl⟩
    obtain ⟨mid, hmid, hkept⟩ := (selects_all_iff hp hq).mp hselects
    obtain ⟨u, hfirst⟩ := (filter_succeeds_iff hp).mpr ⟨items, mid, hlist, hmid, rfl⟩
    obtain ⟨w', hsecond⟩ := (filter_succeeds_iff hq).mpr
      ⟨mid, kept, listAt_insert register key mid, hkept, rfl⟩
    rw [Ascending.insert_insert] at hsecond
    exact ⟨w', (ends_pair_iff hfast).mpr (.completed hfirst hsecond)⟩

/-- Two such filters on one key fail where the first one does, if the second one can always
select from what the first one kept. -/
theorem filters_fail_iff (hfast : e.fastExit = true) (hp : p.OfElementAlone e)
    (hselects : ∀ items mid, Selects p e items mid → ∃ kept, Selects q e mid kept)
    {error : ExecutionError} {w' : World} :
    ((Component.filter first p key key).andThen (.filter second q key key)).Ends e register w
        (.error error) w' ↔
      ∃ error', (Component.filter first p key key).Ends e register w (.error error') w' ∧
        error = .schemaFailed Component.defaultSchemaName 0 first error' := by
  constructor
  · intro h
    cases (ends_pair_iff hfast).mp h with
    | failed hfirst => exact ⟨_, hfirst, rfl⟩
    | failedNext hfirst hsecond =>
      obtain ⟨items, mid, _, hmid, hr⟩ := (filter_succeeds_iff hp).mp ⟨_, hfirst⟩
      cases hr
      obtain ⟨kept, hkept⟩ := hselects items mid hmid
      exact absurd hsecond (not_fails_of_selects (listAt_insert register key mid) hkept)
  · rintro ⟨error', h, rfl⟩
    exact (ends_pair_iff hfast).mpr (.failed h)

/-- A predicate that never fails lets no filter fail but over the list itself. -/
theorem Keeps.error_of_neverFails {items : List Value} {error : ExecutionError} {w' : World}
    (h : Keeps p e items w (.error error) w') (hp : p.NeverFails e) (hq : q.NeverFails e)
    (u : World) : ∃ v, Keeps q e items u (.error error) v := by
  generalize hanswer : Except.error error = answer at h
  induction h generalizing u with
  | nil => cases hanswer
  | notMapping hitem =>
    cases hanswer
    exact ⟨u, .notMapping hitem⟩
  | @failed element _ w _ _ _ hcheck =>
    obtain ⟨_, _, _, hanswers⟩ := hp element w
    cases hcheck.unique hanswers
  | @asked element _ _ _ _ _ _ answer _ _ ih =>
    cases answer with
    | ok kept => cases hanswer
    | error error' =>
      cases hanswer
      obtain ⟨_, _, u', hcheck⟩ := hq element u
      obtain ⟨v, hkeeps⟩ := ih u' rfl
      have hasked := Keeps.asked hcheck hkeeps
      exact ⟨v, hasked⟩

theorem filter_fails_of_neverFails {name name' getKey setKey setKey' : String}
    {error : ExecutionError} {w' : World} (hp : p.NeverFails e) (hq : q.NeverFails e)
    (h : (Component.filter name p getKey setKey).Ends e register w (.error error) w') :
    ∃ v, (Component.filter name' q getKey setKey').Ends e register w (.error error) v := by
  cases hlist : listAt register getKey with
  | error error' =>
    cases (h.unique (filter_ends_of_error hlist)).1
    exact ⟨w, filter_ends_of_error hlist⟩
  | ok items =>
    obtain ⟨error' | kept, hkeeps, hresult⟩ := (filter_ends_iff hlist).mp h
    · cases hresult
      obtain ⟨v, hkeeps⟩ := hkeeps.error_of_neverFails hp hq w
      exact ⟨v, (filter_ends_iff hlist).mpr ⟨_, hkeeps, rfl⟩⟩
    · cases hresult

end

/-! ## The result -/

/-- A filter that succeeds found a list, keeps some of its elements in order and as they are, and
changes nothing else.

For predicates whose answers depend on the element alone, in an evaluator with fast exit, filters
on one key fuse: one after the other they succeed just when the filter with their conjunction
does, and with the same register.  So a filter does the same once or twice, and two whose
predicates never fail do the same in either order; where they fail, it is for the same cause. -/
theorem filters_fuse :
    (∀ name p getKey setKey e register w outcome w',
      (Component.filter name p getKey setKey).Ends e register w (.ok outcome) w' →
      ∃ items kept, register.get? getKey = some (.list items) ∧ kept.Sublist items ∧
        outcome = .next (register.insert setKey (.list kept))) ∧
    ∀ (e : Evaluator) (p q : Predicate) (key : String) (register : Record) (w : World),
      e.fastExit = true → p.OfElementAlone e → q.OfElementAlone e →
      let filter := fun name p => Component.filter name p key key
      let succeeds := fun (c : Component) outcome => ∃ w', c.Ends e register w (.ok outcome) w'
      let fails := fun (c : Component) error => ∃ w', c.Ends e register w (.error error) w'
      (∀ first second both outcome,
        succeeds ((filter first p).andThen (filter second q)) outcome ↔
          succeeds (filter both (.all [p, q])) outcome) ∧
      (∀ first second,
        (∀ outcome, succeeds ((filter first p).andThen (filter second p)) outcome ↔
          succeeds (filter first p) outcome) ∧
        ∀ error, fails ((filter first p).andThen (filter second p)) error ↔
          ∃ error', fails (filter first p) error' ∧
            error = .schemaFailed Component.defaultSchemaName 0 first error') ∧
      (p.NeverFails e → q.NeverFails e → ∀ first second,
        (∀ outcome, succeeds ((filter first p).andThen (filter second q)) outcome ↔
          succeeds ((filter second q).andThen (filter first p)) outcome) ∧
        ∀ error, fails ((filter first p).andThen (filter second q)) error →
          ∃ error', fails ((filter second q).andThen (filter first p)) error' ∧
            error.rootCause = error'.rootCause) := by
  refine ⟨?_, ?_⟩
  · intro name p getKey setKey e register w outcome w' h
    obtain ⟨items, kept, hlist, hkeeps, rfl⟩ := filter_ends_ok_iff.mp h
    exact ⟨items, kept, listAt_eq_ok.mp hlist, hkeeps.sublist, rfl⟩
  · intro e p q key register w hfast hp hq filter succeeds fails
    refine ⟨fun first second both outcome => ?_, fun first second => ⟨fun outcome => ?_,
      fun error => ?_⟩, fun hpfails hqfails first second => ⟨fun outcome => ?_, ?_⟩⟩
    · exact (filters_succeed_iff hfast hp hq).trans (filter_succeeds_iff (hp.all hq)).symm
    · refine (filters_succeed_iff hfast hp hp).trans ?_
      simp only [selects_all_self_iff hp]
      exact (filter_succeeds_iff hp).symm
    · simp only [fails, filter]
      simp only [filters_fail_iff hfast hp fun _ mid h => ⟨mid, h.again⟩]
      exact ⟨fun ⟨w', error', h, herror⟩ => ⟨error', ⟨w', h⟩, herror⟩,
        fun ⟨error', ⟨w', h⟩, herror⟩ => ⟨w', error', h, herror⟩⟩
    · refine (filters_succeed_iff hfast hp hq).trans
        (Iff.trans ?_ (filters_succeed_iff hfast hq hp).symm)
      have hcomm (items kept : List Value) :
          Selects (.all [p, q]) e items kept ↔ Selects (.all [q, p]) e items kept :=
        ⟨.all_comm hp hq hqfails, .all_comm hq hp hpfails⟩
      simp only [hcomm]
    · rintro error ⟨w', h⟩
      have hselects (items mid : List Value) (hmid : Selects p e items mid) :=
        hmid.exists_of_answers (hqfails.answers hq)
      obtain ⟨error', hfirst, rfl⟩ := (filters_fail_iff hfast hp hselects).mp h
      obtain ⟨v, hsecond⟩ := filter_fails_of_neverFails hpfails hqfails hfirst
      exact ⟨_, ⟨v, (ends_pair_iff hfast).mpr (.failed hsecond)⟩, rfl⟩

/-! ### Two bounds -/

section

variable (check : Record → Bool) (e : Evaluator)

theorem onRegister_ofElementAlone : (Stock.onRegister check).OfElementAlone e := by
  rintro element w b events w' ⟨n, h⟩
  cases h
  exact fun u => ⟨[], u, n, rfl⟩

theorem onRegister_neverFails : (Stock.onRegister check).NeverFails e :=
  fun element w => ⟨check element, [], w, 0, rfl⟩

end

/-- Of three counts one is within both bounds. -/
theorem bounds_fuse :
    let e := Evaluator.make "Root" .off true 0
    let listed := fun counts : List Int =>
      Stock.record [("fs", .list (counts.map fun n => .mapping (Stock.record [("f", .int n)])))]
    let filter := fun name p => Component.filter name p "fs" "fs"
    let above := Stock.above "f" 1
    let below := Stock.below "f" 3
    (∃ items kept, (listed [1, 2, 3]).get? "fs" = some (.list items) ∧ kept.Sublist items ∧
      Outcome.next (listed [2, 3]) = .next ((listed [1, 2, 3]).insert "fs" (.list kept))) ∧
    (∃ w', (filter "Both" (.all [above, below])).Ends e (listed [1, 2, 3]) World.empty
      (.ok (.next (listed [2]))) w') ∧
    ∃ w', ((filter "Below" below).andThen (filter "Above" above)).Ends e (listed [1, 2, 3])
      World.empty (.ok (.next (listed [2]))) w' := by
  intro e listed filter above below
  obtain ⟨hkeeps, hfuse⟩ := filters_fuse
  obtain ⟨hboth, _, hcomm⟩ := hfuse e above below "fs" (listed [1, 2, 3]) World.empty rfl
    (onRegister_ofElementAlone _ e) (onRegister_ofElementAlone _ e)
  have hone : (filter "Above" above).Ends e (listed [1, 2, 3]) World.empty
    (.ok (.next (listed [2, 3]))) World.empty := ⟨[], 1, rfl⟩
  have htwo : ((filter "Above" above).andThen (filter "Below" below)).Ends e (listed [1, 2, 3])
    World.empty (.ok (.next (listed [2]))) World.empty := ⟨[], 1, rfl⟩
  refine ⟨hkeeps _ _ _ _ _ _ _ _ _ hone, (hboth _ _ _ _).mp ⟨_, htwo⟩, ?_⟩
  obtain ⟨hsucceeds, _⟩ :=
    hcomm (onRegister_neverFails _ e) (onRegister_neverFails _ e) "Above" "Below"
  exact (hsucceeds _).mp ⟨_, htwo⟩

end Pipeline
