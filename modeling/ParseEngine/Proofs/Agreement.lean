import ParseEngine.Proofs.Stability

namespace ParseEngine

/-- What a session has beside a common one: rules in flight below it, reads before it, passes and reads of seeds
already counted. -/
structure View where
  depth : Nat := 0
  read : Option Nat := none
  passes : Nat := 0
  reentries : Nat := 0

def View.untracked (a : View) : View :=
  { a with read := none }

def Growth.deepen (growth : Growth) (depth : Nat) : Growth :=
  { growth with depth := growth.depth + depth }

structure Session.Agree (own : ParserId → Prop) (a b : View) (s t : Session) : Prop where
  options : s.options = t.options
  growing : ∀ key, own key.parser → ∃ found : Option Growth,
    s.growing.lookup key = found.map (·.deepen a.depth) ∧ t.growing.lookup key = found.map (·.deepen b.depth)
  height : ∃ height, s.growing.length = height + a.depth ∧ t.growing.length = height + b.depth
  memo : ∀ key, own key.parser → s.memo.lookup key = t.memo.lookup key
  read : ∃ read : Option Nat, s.shallowestRead = shallower a.read (read.map (· + a.depth)) ∧
    t.shallowestRead = shallower b.read (read.map (· + b.depth))
  passes : s.passes + b.passes = t.passes + a.passes
  reentries : s.reentries + b.reentries = t.reentries + a.reentries

namespace Session

theorem lookup_grow (s : Session) (key : Key) (o : Outcome) (other : Key) :
    (s.grow key o).growing.lookup other =
      if other = key then (s.growing.lookup key).map fun growth => { growth with seed := o, phase := .growing }
      else s.growing.lookup other := by
  simp only [grow]
  induction s.growing with
  | nil => simp
  | cons entry rest ih =>
      obtain ⟨k, growth⟩ := entry
      by_cases top : k = key
      · subst top
        by_cases same : other = k
        · simp [same]
        · simp [same, List.lookup_cons, beq_eq_false_iff_ne.2 same] at ih ⊢
          exact ih
      · have differs : key ≠ k := fun same => top same.symm
        by_cases same : other = k
        · subst same
          simp [top]
        · simpa [top, List.lookup_cons, beq_eq_false_iff_ne.2 same, beq_eq_false_iff_ne.2 differs] using ih

theorem length_grow (s : Session) (key : Key) (o : Outcome) :
    (s.grow key o).growing.length = s.growing.length := by
  simp [grow]

namespace Agree
variable {own : ParserId → Prop} {a b : View} {s s' t t' : Session} {key : Key} {o : Outcome}

theorem symm (agree : Agree own a b s t) : Agree own b a t s := by
  refine ⟨agree.options.symm, fun key mine => ?_, ?_, fun key mine => (agree.memo key mine).symm, ?_,
    agree.passes.symm, agree.reentries.symm⟩
  · obtain ⟨found, left, right⟩ := agree.growing key mine
    exact ⟨found, right, left⟩
  · obtain ⟨height, left, right⟩ := agree.height
    exact ⟨height, right, left⟩
  · obtain ⟨read, left, right⟩ := agree.read
    exact ⟨read, right, left⟩

theorem alike (agree : Agree own a b s t) (left : s'.Alike s) (right : t'.Alike t) : Agree own a b s' t' := by
  obtain ⟨options, memo, growing, read, passes, reentries⟩ := left
  obtain ⟨options', memo', growing', read', passes', reentries'⟩ := right
  refine ⟨?_, ?_, ?_, ?_, ?_, ?_, ?_⟩
  · rw [options, options', agree.options]
  · rw [growing, growing']
    exact agree.growing
  · rw [growing, growing']
    exact agree.height
  · rw [memo, memo']
    exact agree.memo
  · rw [read, read']
    exact agree.read
  · rw [passes, passes']
    exact agree.passes
  · rw [reentries, reentries']
    exact agree.reentries

theorem counted (agree : Agree own a b s t) : Agree own a b s.counted t.counted := by
  refine ⟨agree.options, agree.growing, agree.height, agree.memo, agree.read, ?_, agree.reentries⟩
  have := agree.passes
  simp only [Session.counted]
  omega

theorem inFlight (agree : Agree own a b s t) (key : Key) (mine : own key.parser) :
    (s.growing.lookup key = none ∧ t.growing.lookup key = none) ∨
      ∃ growth : Growth, s.growing.lookup key = some (growth.deepen a.depth) ∧
        t.growing.lookup key = some (growth.deepen b.depth) := by
  obtain ⟨found, left, right⟩ := agree.growing key mine
  cases found with
  | none => exact .inl ⟨left, right⟩
  | some growth => exact .inr ⟨growth, left, right⟩

theorem reread (agree : Agree own a b s t) (growth : Growth) :
    Agree own a b (s.reread (growth.deepen a.depth)) (t.reread (growth.deepen b.depth)) := by
  refine ⟨agree.options, agree.growing, agree.height, agree.memo, ?_, agree.passes, ?_⟩
  · obtain ⟨read, left, right⟩ := agree.read
    refine ⟨shallower read (some growth.depth), ?_, ?_⟩
    · rw [shallower_map_add, ← shallower_assoc, ← left]
      rfl
    · rw [shallower_map_add, ← shallower_assoc, ← right]
      rfl
  · have := agree.reentries
    simp only [Session.reread]
    omega

theorem untracked (agree : Agree own a b s t) : Agree own a.untracked b.untracked s.untracked t.untracked :=
  ⟨agree.options, agree.growing, agree.height, agree.memo, ⟨none, rfl, rfl⟩, agree.passes, agree.reentries⟩

theorem begin (agree : Agree own a b s t) (key : Key) (o : Outcome) :
    Agree own a b (s.begin key o) (t.begin key o) := by
  obtain ⟨height, left, right⟩ := agree.height
  refine ⟨agree.options, fun other mine => ?_, ⟨height + 1, ?_, ?_⟩, agree.memo, agree.read, agree.passes,
    agree.reentries⟩
  · rw [lookup_begin, lookup_begin]
    by_cases same : other = key
    · refine ⟨some ⟨o, .seeding, height⟩, ?_, ?_⟩
      · simp [same, left, Growth.deepen]
      · simp [same, right, Growth.deepen]
    · rw [if_neg same, if_neg same]
      exact agree.growing other mine
  · simp only [Session.begin, List.length_cons, left]
    omega
  · simp only [Session.begin, List.length_cons, right]
    omega

theorem grow (agree : Agree own a b s t) (key : Key) (o : Outcome) :
    Agree own a b (s.grow key o) (t.grow key o) := by
  refine ⟨agree.options, fun other mine => ?_, ?_, agree.memo, agree.read, agree.passes, agree.reentries⟩
  · rw [lookup_grow, lookup_grow]
    by_cases same : other = key
    · subst same
      obtain ⟨found, left, right⟩ := agree.growing other mine
      refine ⟨found.map fun growth => { growth with seed := o, phase := .growing }, ?_, ?_⟩
      · rw [if_pos rfl, left, Option.map_map, Option.map_map]
        rfl
      · rw [if_pos rfl, right, Option.map_map, Option.map_map]
        rfl
    · rw [if_neg same, if_neg same]
      exact agree.growing other mine
  · rw [length_grow, length_grow]
    exact agree.height

theorem remember (agree : Agree own a b s t) (mine : own key.parser) (entry : Entry) :
    Agree own a b (s.remember key entry).2 (t.remember key entry).2 := by
  have same : s.remembers key = t.remembers key := by rw [remembers, agree.memo key mine, remembers]
  unfold Session.remember
  rw [same]
  split
  · exact agree
  · refine ⟨agree.options, agree.growing, agree.height, fun other mine' => ?_, agree.read, agree.passes,
      agree.reentries⟩
    simp only [List.lookup_cons, agree.memo other mine']

theorem remember_left (agree : Agree own a b s t) (foreign : ¬own key.parser) (entry : Entry) :
    Agree own a b (s.remember key entry).2 t := by
  unfold Session.remember
  split
  · exact agree
  · refine ⟨agree.options, agree.growing, agree.height, fun other mine => ?_, agree.read, agree.passes,
      agree.reentries⟩
    have differs : other ≠ key := fun same => foreign (same ▸ mine)
    simp only [List.lookup_cons, beq_eq_false_iff_ne.2 differs, agree.memo other mine]

section Tracked
variable {u v : Session} (agree : Agree own a b s t)
include agree

theorem readsBelow_eq (inner : Agree own a.untracked b.untracked u v) :
    u.readsBelow s.growing.length = v.readsBelow t.growing.length := by
  obtain ⟨height, left, right⟩ := agree.height
  obtain ⟨read, left', right'⟩ := inner.read
  cases read with
  | none =>
      rw [readsBelow, readsBelow, left', right']
      rfl
  | some read =>
      rw [readsBelow, readsBelow, left', right', left, right]
      simp [View.untracked, shallower]

theorem finish (inner : Agree own a.untracked b.untracked u v) (left : (u.finish key).growing = s.growing)
    (right : (v.finish key).growing = t.growing) :
    Agree own a.untracked b.untracked (u.finish key) (v.finish key) := by
  refine ⟨inner.options, ?_, ?_, inner.memo, inner.read, inner.passes, inner.reentries⟩
  · rw [left, right]
    exact agree.growing
  · rw [left, right]
    exact agree.height

theorem resume (inner : Agree own a.untracked b.untracked u v) : Agree own a b (s.resume u) (t.resume v) := by
  refine ⟨inner.options, inner.growing, inner.height, inner.memo, ?_, inner.passes, inner.reentries⟩
  obtain ⟨read, left, right⟩ := agree.read
  obtain ⟨read', left', right'⟩ := inner.read
  refine ⟨shallower read read', ?_, ?_⟩
  · rw [shallower_map_add, ← shallower_assoc, ← left, Session.resume, left']
    rfl
  · rw [shallower_map_add, ← shallower_assoc, ← right, Session.resume, right']
    rfl

theorem kept (inner : Agree own a.untracked b.untracked u v) (mine : own key.parser) :
    Agree own a b (s.kept u key o) (t.kept v key o) := by
  unfold Session.kept
  rw [agree.readsBelow_eq inner]
  split
  · exact agree.resume inner
  · exact (agree.resume inner).remember mine _

theorem untracked_left : Agree own a.untracked { b with read := t.shallowestRead } s.untracked t := by
  refine ⟨agree.options, agree.growing, agree.height, agree.memo, ⟨none, rfl, ?_⟩, agree.passes, agree.reentries⟩
  simp

theorem kept_left (inner : Agree own a.untracked { b with read := t.shallowestRead } u v)
    (foreign : ¬own key.parser) : Agree own a b (s.kept u key o) v := by
  have resumed : Agree own a b (s.resume u) v := by
    refine ⟨inner.options, inner.growing, inner.height, inner.memo, ?_, inner.passes, inner.reentries⟩
    obtain ⟨read, left, right⟩ := agree.read
    obtain ⟨read', left', right'⟩ := inner.read
    refine ⟨shallower read read', ?_, ?_⟩
    · rw [shallower_map_add, ← shallower_assoc, ← left, Session.resume, left']
      rfl
    · rw [shallower_map_add, ← shallower_assoc, ← right, right']
  unfold Session.kept
  split
  · exact resumed
  · exact resumed.remember_left foreign _

end Tracked

end Agree
end Session
end ParseEngine
