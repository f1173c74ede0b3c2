import ParseEngine.Proofs.Expression

namespace ParseEngine
namespace Session
variable {s t : Session} {key : Key} {o seed : Outcome} {growth : Growth} {base : List (Key × Growth)}

@[simp] theorem shallower_none_right (read : Option Nat) : shallower read none = read := by
  cases read <;> rfl

theorem shallower_assoc (a b c : Option Nat) : shallower (shallower a b) c = shallower a (shallower b c) := by
  cases a <;> cases b <;> cases c <;> simp [shallower, Nat.min_assoc]

theorem shallower_map_add (k : Nat) (a b : Option Nat) :
    (shallower a b).map (· + k) = shallower (a.map (· + k)) (b.map (· + k)) := by
  cases a <;> cases b <;> simp [shallower, Nat.add_min_add_right]

def untracked (s : Session) : Session :=
  { s with shallowestRead := none }

def resume (s t : Session) : Session :=
  { t with shallowestRead := shallower s.shallowestRead t.shallowestRead }

def readsBelow (t : Session) (depth : Nat) : Bool :=
  match t.shallowestRead with
  | some read => decide (read < depth)
  | none => false

/-- The session after the outcome of an evaluation was remembered, unless it is provisional. -/
def kept (s t : Session) (key : Key) (o : Outcome) : Session :=
  if t.readsBelow s.growing.length then s.resume t else ((s.resume t).remember key (.outcome o)).2

theorem tracked_eq {α : Type} (s : Session) (evaluate : Session → Except Halt (α × Session)) :
    s.tracked evaluate = evaluate s.untracked >>= fun r =>
      .ok (r.1, r.2.readsBelow s.growing.length, s.resume r.2) := rfl

theorem remembers_eq_false : s.remembers key = false ↔ s.memo.lookup key = none := by
  simp [remembers]

theorem remember_memo (entry : Entry) :
    (s.remember key entry).2.memo = if s.remembers key then s.memo else (key, entry) :: s.memo := by
  unfold remember
  split <;> rfl

theorem lookup_remember (entry : Entry) (other : Key) :
    (s.remember key entry).2.memo.lookup other =
      if other = key ∧ s.memo.lookup key = none then some entry else s.memo.lookup other := by
  rw [remember_memo]
  cases known : s.memo.lookup key with
  | some found => simp [remembers, known]
  | none =>
      by_cases same : other = key
      · simp [remembers, known, same]
      · simp [remembers, known, same, List.lookup_cons, beq_eq_false_iff_ne.2 same]

theorem remember_growing (entry : Entry) : (s.remember key entry).2.growing = s.growing := by
  unfold remember
  split <;> rfl

theorem kept_memo (s t : Session) (key : Key) (o : Outcome) : (s.kept t key o).memo =
    if t.readsBelow s.growing.length then t.memo
    else if t.remembers key then t.memo else (key, .outcome o) :: t.memo := by
  unfold kept
  split
  · rfl
  · exact remember_memo _

theorem kept_growing (s t : Session) (key : Key) (o : Outcome) : (s.kept t key o).growing = t.growing := by
  unfold kept
  split
  · rfl
  · exact remember_growing _

theorem not_mem_of_lookup (idle : base.lookup key = none) {entry : Key × Growth} (member : entry ∈ base) :
    entry.1 ≠ key := by
  intro same
  have apart := List.lookup_eq_none_iff.1 idle entry member
  simp [same] at apart

theorem mem_of_lookup (found : base.lookup key = some growth) : (key, growth) ∈ base := by
  obtain ⟨above, below, split, -⟩ := List.lookup_eq_some_iff.1 found
  rw [split]
  exact List.mem_append_right above List.mem_cons_self

theorem grow_growing (top : t.growing = (key, growth) :: base) (idle : base.lookup key = none) :
    (t.grow key o).growing = (key, { growth with seed := o, phase := .growing }) :: base := by
  simp only [grow, top, List.map_cons, if_true, List.cons.injEq, true_and]
  refine (List.map_congr_left fun entry member => ?_).trans (List.map_id base)
  exact if_neg (not_mem_of_lookup idle member)

theorem mem_grow (top : t.growing = (key, growth) :: base) (idle : base.lookup key = none) {entry : Key × Growth}
    (member : entry ∈ (t.grow key o).growing) :
    entry = (key, { growth with seed := o, phase := .growing }) ∨ entry ∈ t.growing := by
  rw [grow_growing top idle] at member
  rcases List.mem_cons.1 member with same | member
  · exact .inl same
  · exact .inr (top ▸ List.mem_cons_of_mem _ member)

theorem finish_growing (top : t.growing = (key, growth) :: base) (idle : base.lookup key = none) :
    (t.finish key).growing = base := by
  have rest : base.filter (·.1 ≠ key) = base :=
    List.filter_eq_self.2 fun entry member => by simpa using not_mem_of_lookup idle member
  simp only [finish, top, List.filter_cons, rest]
  simp

theorem lookup_begin (s : Session) (key : Key) (seed : Outcome) (other : Key) :
    (s.begin key seed).growing.lookup other =
      if other = key then some ⟨seed, .seeding, s.growing.length⟩ else s.growing.lookup other := by
  by_cases same : other = key
  · simp [begin, same]
  · simp [begin, same, List.lookup_cons, beq_eq_false_iff_ne.2 same]

theorem readsBelow_congr (same : t.shallowestRead = s.shallowestRead) (depth : Nat) :
    t.readsBelow depth = s.readsBelow depth := by
  rw [readsBelow, same]
  rfl

theorem readsBelow_resume (s t : Session) (depth : Nat) :
    (s.resume t).readsBelow depth = (s.readsBelow depth || t.readsBelow depth) := by
  unfold resume readsBelow
  cases s.shallowestRead with
  | none => simp [shallower]
  | some a =>
      cases t.shallowestRead with
      | none => simp
      | some b =>
          simp only [shallower, ← Bool.decide_or, decide_eq_decide]
          omega

structure Continues (s t : Session) : Prop where
  options : t.options = s.options
  growing : t.growing = s.growing
  memo : ∀ key entry, s.memo.lookup key = some entry → t.memo.lookup key = some entry
  reads : ∀ depth, s.readsBelow depth → t.readsBelow depth

theorem Continues.refl (s : Session) : s.Continues s :=
  ⟨rfl, rfl, fun _ _ known => known, fun _ read => read⟩

theorem Continues.trans {u : Session} (first : s.Continues t) (second : t.Continues u) : s.Continues u :=
  ⟨second.options.trans first.options, second.growing.trans first.growing,
    fun key entry known => second.memo key entry (first.memo key entry known),
    fun depth read => second.reads depth (first.reads depth read)⟩

theorem Continues.resume {u : Session} (inner : s.untracked.Continues u) : s.Continues (s.resume u) := by
  refine ⟨inner.options, inner.growing, inner.memo, fun depth read => ?_⟩
  rw [readsBelow_resume, read, Bool.true_or]

theorem Continues.annotate (s : Session) (f : Journal → Journal) : s.Continues (s.annotate f) :=
  ⟨rfl, rfl, fun _ _ known => known, fun _ read => read⟩

theorem remember_continues (s : Session) (key : Key) (entry : Entry) : s.Continues (s.remember key entry).2 := by
  refine ⟨?_, remember_growing entry, fun other known found => ?_, fun depth read => ?_⟩
  · unfold remember
    split <;> rfl
  · rw [lookup_remember]
    split
    · rename_i new
      rw [new.1, new.2] at found
      cases found
    · exact found
  · unfold remember
    split <;> exact read

theorem kept_continues (options : t.options = s.options) (growing : t.growing = s.growing)
    (memo : ∀ key entry, s.memo.lookup key = some entry → t.memo.lookup key = some entry) :
    s.Continues (s.kept t key o) := by
  have reads (depth : Nat) (read : s.readsBelow depth) : (s.resume t).readsBelow depth := by
    rw [readsBelow_resume, read, Bool.true_or]
  have resumed : s.Continues (s.resume t) := ⟨options, growing, memo, reads⟩
  unfold kept
  split
  · exact resumed
  · exact resumed.trans (remember_continues _ key _)

end Session

def Grammar.Grows (g : Grammar) (id : ParserId) : Prop :=
  ∃ r rule, id = .rule r ∧ g.rules[r]? = some rule ∧ rule.mode = .leftRecursive

/-- Only an interceptor can plant a plain byte. -/
def Entry.Follows (st : Setting) (start : Nat) : Entry → Prop
  | .outcome o => o.Follows st start
  | .byte .. => ¬st.closed

theorem Entry.eq_of_outcome? {entry : Entry} {contextual : Bool} {o : Outcome}
    (read : entry.outcome? contextual = some o) :
    entry = .outcome o := by
  cases entry with
  | byte n cursor => cases read
  | outcome o' =>
      simp only [outcome?] at read
      split at read
      · cases read
        rfl
      · cases read

structure Growth.Sound (g : Grammar) (st : Setting) (height : Nat) (key : Key) (growth : Growth) : Prop where
  seed : growth.seed.Follows st key.index
  depth : growth.depth < height
  rule : g.Grows key.parser

namespace Session

structure Sound (g : Grammar) (st : Setting) (s : Session) : Prop where
  memo : ∀ key entry, s.memo.lookup key = some entry → entry.Follows st key.index
  growing : ∀ key growth, s.growing.lookup key = some growth → growth.Sound g st s.growing.length key
  apart : st.plain → st.closed → ∀ key growth, s.growing.lookup key = some growth → s.memo.lookup key = none

namespace Sound
variable {g : Grammar} {st : Setting} {s t : Session} {key : Key} {o : Outcome} {growth : Growth}
  {base : List (Key × Growth)}

theorem fresh (options : Options) (journal : Journal) : (Session.fresh options journal).Sound g st where
  memo _ _ known := by cases known
  growing _ _ inFlight := by cases inFlight
  apart _ _ _ _ inFlight := by cases inFlight

theorem congr (sound : s.Sound g st) (memo : t.memo = s.memo) (growing : t.growing = s.growing) :
    t.Sound g st :=
  ⟨memo ▸ sound.memo, growing ▸ sound.growing, memo ▸ growing ▸ sound.apart⟩

theorem begin (sound : s.Sound g st) (rule : g.Grows key.parser)
    (unknown : st.plain → st.closed → s.memo.lookup key = none)
    (follows : o.Follows st key.index) : (s.begin key o).Sound g st := by
  refine ⟨sound.memo, fun other growth found => ?_, fun plain closed other growth found => ?_⟩
  · rw [lookup_begin] at found
    split at found
    · rename_i same
      subst same
      cases found
      exact ⟨follows, Nat.lt_succ_self _, rule⟩
    · have old := sound.growing other growth found
      exact ⟨old.seed, Nat.lt_succ_of_lt old.depth, old.rule⟩
  · rw [lookup_begin] at found
    split at found
    · rename_i same
      exact same ▸ unknown plain closed
    · exact sound.apart plain closed other growth found

theorem grow (sound : t.Sound g st) (top : t.growing = (key, growth) :: base) (idle : base.lookup key = none)
    (follows : o.Follows st key.index) : (t.grow key o).Sound g st := by
  have grown := grow_growing (o := o) top idle
  have above : growth.Sound g st t.growing.length key := sound.growing key growth (by simp [top])
  have height : (t.grow key o).growing.length = t.growing.length := by rw [grown, top]; rfl
  -- the other rules in flight are as before
  have same (other : Key) (differs : other ≠ key) :
      (t.grow key o).growing.lookup other = t.growing.lookup other := by
    rw [grown, top]
    simp [List.lookup_cons, beq_eq_false_iff_ne.2 differs]
  refine ⟨sound.memo, fun other growth' found => ?_, fun plain closed other growth' found => ?_⟩
  · rw [height]
    by_cases differs : other = key
    · subst differs
      rw [grown, List.lookup_cons_self] at found
      cases found
      exact ⟨follows, above.depth, above.rule⟩
    · exact sound.growing other growth' (same other differs ▸ found)
  · by_cases differs : other = key
    · exact differs ▸ sound.apart plain closed key growth (by simp [top])
    · exact sound.apart plain closed other growth' (same other differs ▸ found)

theorem finish (sound : t.Sound g st) (before : s.Sound g st) (top : t.growing = (key, growth) :: s.growing)
    (idle : s.growing.lookup key = none) : (t.finish key).Sound g st := by
  have popped := finish_growing top idle
  refine ⟨sound.memo, popped ▸ before.growing, fun plain closed other growth' found => ?_⟩
  rw [popped] at found
  refine sound.apart plain closed other growth' ?_
  have differs : other ≠ key := fun same => by rw [same, idle] at found; cases found
  rw [top]
  simpa [List.lookup_cons, beq_eq_false_iff_ne.2 differs] using found

theorem remember (sound : s.Sound g st) {entry : Entry} (follows : entry.Follows st key.index)
    (idle : st.plain → st.closed → s.growing.lookup key = none) : (s.remember key entry).2.Sound g st := by
  refine ⟨fun other known known' => ?_, ?_, fun plain closed other growth found => ?_⟩
  · rw [lookup_remember] at known'
    split at known'
    · rename_i new
      cases known'
      exact new.1 ▸ follows
    · exact sound.memo other known known'
  · rw [remember_growing]
    exact sound.growing
  · rw [remember_growing] at found
    rw [lookup_remember, if_neg]
    · exact sound.apart plain closed other growth found
    · rintro ⟨rfl, -⟩
      rw [idle plain closed] at found
      cases found

theorem kept (sound : t.Sound g st) (idle : st.plain → st.closed → t.growing.lookup key = none)
    (follows : o.Follows st key.index) : (s.kept t key o).Sound g st := by
  have resumed : (s.resume t).Sound g st := sound.congr rfl rfl
  unfold Session.kept
  split
  · exact resumed
  · exact resumed.remember follows idle

theorem readable (sound : s.Sound g st) {entry : Entry} (known : s.memo.lookup key = some entry) {c : Cursor}
    (plain : st.plain) (closed : st.closed) (fits : c.Fits st) :
    ∃ o, entry = .outcome o ∧ entry.outcome? c.context.isSome = some o ∧ o.Follows st key.index := by
  have follows := sound.memo key entry known
  cases entry with
  | byte n cursor => exact absurd closed follows
  | outcome o =>
      refine ⟨o, rfl, ?_, follows⟩
      simp [Entry.outcome?, Cursor.Fits.context follows.fits plain, fits.context plain]

end Sound
end Session
end ParseEngine
