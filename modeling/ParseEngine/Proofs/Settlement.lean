import Mathlib.Logic.Relation
import ParseEngine.Proofs.Stability
import ParseEngine.Proofs.Tracking

namespace ParseEngine

def Session.Remembers (s : Session) (memo : List (Key × Entry)) : Prop :=
  ∀ key entry, memo.lookup key = some entry → s.memo.lookup key = some entry

/-- Wherever the table is remembered, the expression gives the outcome and leaves the session as it is. -/
def Grammar.Permanent (g : Grammar) (st : Setting) (memo : List (Key × Entry)) (e : Expr) (c : Cursor) (o : Outcome) :
    Prop :=
  ∀ s : Session, s.Sound g st → s.Remembers memo → ∃ fuel t, g.run fuel e c s = .ok (o, t) ∧ t.Alike s

def Grammar.Steady (g : Grammar) (st : Setting) (s : Session) : Prop :=
  ∀ r rule c o, g.rules[r]? = some rule → rule.mode = .memo → c.Fits st →
    s.memo.lookup ⟨.rule r, c.index⟩ = some (.outcome o) → g.Permanent st s.memo rule.body c o

variable {g : Grammar} {st : Setting} {e : Expr} {r : Nat} {rule : Rule} {c : Cursor} {s t u : Session} {o : Outcome}
  {memo memo' : List (Key × Entry)} {key : Key} {fuel : Nat}

theorem Session.readsBelow_zero (s : Session) : s.readsBelow 0 = false := by
  unfold readsBelow
  split <;> simp

theorem Session.Remembers.alike (remembers : t.Remembers memo) (alike : s.Alike t) : s.Remembers memo := by
  intro key entry known
  rw [alike.memo]
  exact remembers key entry known

theorem Session.Remembers.before (remembers : u.Remembers t.memo) (continues : s.Continues t) :
    u.Remembers s.memo :=
  fun key entry known => remembers key entry (continues.memo key entry known)

namespace Grammar

theorem Permanent.mono (permanent : g.Permanent st memo e c o)
    (more : ∀ key entry, memo.lookup key = some entry → memo'.lookup key = some entry) :
    g.Permanent st memo' e c o :=
  fun s sound remembers => permanent s sound fun key entry known => remembers key entry (more key entry known)

theorem Permanent.unique {o' : Outcome} (permanent : g.Permanent st s.memo e c o)
    (permanent' : g.Permanent st s.memo e c o') (sound : s.Sound g st) : o = o' := by
  obtain ⟨_, _, ran, -⟩ := permanent s sound fun _ _ known => known
  obtain ⟨_, _, ran', -⟩ := permanent' s sound fun _ _ known => known
  exact congrArg Prod.fst (run_unique ran ran')

theorem Steady.of_memo (steady : g.Steady st s) (same : t.memo = s.memo) : g.Steady st t := by
  intro r rule c o found mode fits known
  rw [same] at known ⊢
  exact steady r rule c o found mode fits known

theorem permanent_of_known (found : g.rules[r]? = some rule) (mode : rule.mode ≠ .plain) (plain : st.plain)
    (closed : st.closed) (fits : c.Fits st) (known : memo.lookup ⟨.rule r, c.index⟩ = some (.outcome o)) :
    g.Permanent st memo (.rule r) c o := by
  intro u sound remembers
  have known' := remembers _ _ known
  obtain ⟨o', same, read, -⟩ := sound.readable known' plain closed fits
  cases same
  have hit : (u.memo.lookup ⟨.rule r, c.index⟩).bind (·.outcome? c.context.isSome) = some o := by
    rw [known', Option.bind_some, read]
  cases modeEq : rule.mode with
  | plain => exact absurd modeEq mode
  | memo =>
      obtain ⟨t, alike, ran⟩ := Runner.memo_hit (g.run 0 rule.body) hit
      exact ⟨1, t, by rw [run_memo found 0 modeEq]; exact ran, alike⟩
  | leftRecursive =>
      -- what is remembered is not in flight
      have idle : u.growing.lookup ⟨.rule r, c.index⟩ = none := by
        refine Option.eq_none_iff_forall_not_mem.2 fun growth inFlight => ?_
        rw [sound.apart plain closed _ growth inFlight] at known'
        cases known'
      obtain ⟨t, alike, ran⟩ := Runner.leftRecursive_hit rule.title (g.run 0 rule.body) idle hit
      exact ⟨1, t, by rw [run_leftRecursive found 0 modeEq]; exact ran, alike⟩

theorem Steady.remember (steady : g.Steady st s) {entry : Entry}
    (settled : ∀ r rule c, g.rules[r]? = some rule → rule.mode = .memo → c.Fits st →
      key = ⟨.rule r, c.index⟩ → ∀ o, entry = .outcome o → g.Permanent st s.memo rule.body c o) :
    g.Steady st (s.remember key entry).2 := by
  have more := (s.remember_continues key entry).memo
  intro r rule c o found mode fits known
  rw [Session.lookup_remember] at known
  split at known
  · rename_i new
    exact (settled r rule c found mode fits new.1.symm o (Option.some.inj known)).mono more
  · exact (steady r rule c o found mode fits known).mono more

theorem Steady.kept (steady : g.Steady st u)
    (settled : u.readsBelow s.growing.length = false → ∀ r rule c, g.rules[r]? = some rule → rule.mode = .memo →
      c.Fits st → key = ⟨.rule r, c.index⟩ → g.Permanent st u.memo rule.body c o) :
    g.Steady st (s.kept u key o) := by
  unfold Session.kept
  split
  · exact steady.of_memo rfl
  · rename_i read
    refine (steady.of_memo (t := s.resume u) rfl).remember fun r rule c found mode fits same o' same' => ?_
    cases same'
    exact settled (by simpa using read) r rule c found mode fits same

section Rule
variable (found : g.rules[r]? = some rule) (plain : st.plain) (closed : st.closed) (fits : c.Fits st)
  (sound : s.Sound g st) (steady : g.Steady st s)
  (pass : ∀ s : Session, s.Sound g st → Safely (g.Advances st c.index s) (g.run fuel rule.body c s))
  (body : ∀ (s : Session) o t, s.Sound g st → g.Steady st s → g.run fuel rule.body c s = .ok (o, t) →
    g.Steady st t ∧ (t.readsBelow s.growing.length = false → g.Permanent st t.memo rule.body c o))
include found plain closed fits sound steady pass body

theorem memo_steady (mode : rule.mode = .memo)
    (ran : Runner.memo (.rule r) (g.run fuel rule.body) c s = .ok (o, t)) :
    g.Steady st t ∧ (t.readsBelow s.growing.length = false → g.Permanent st t.memo (.rule r) c o) := by
  have ordinary : rule.mode ≠ .plain := by simp [mode]
  cases known : (s.memo.lookup ⟨.rule r, c.index⟩).bind (·.outcome? c.context.isSome) with
  | some o' =>
      obtain ⟨u, alike, hit⟩ := Runner.memo_hit (g.run fuel rule.body) known
      rw [hit] at ran
      cases ran
      refine ⟨steady.of_memo alike.memo, fun _ => permanent_of_known found ordinary plain closed fits ?_⟩
      obtain ⟨entry, known', read⟩ := Option.bind_eq_some_iff.1 known
      obtain ⟨o', rfl, read', -⟩ := sound.readable known' plain closed fits
      rw [read'] at read
      cases read
      rw [alike.memo]
      exact known'
  | none =>
      obtain ⟨note, miss⟩ := Runner.memo_miss (g.run fuel rule.body) known
      rw [miss] at ran
      obtain ⟨⟨o', u⟩, evaluated, result⟩ := bind_eq_ok.1 ran
      cases result
      have sound' := ((pass s.missed (sound.congr rfl rfl)).result evaluated).sound
      obtain ⟨steady', settled⟩ := body s.missed o' u (sound.congr rfl rfl) (steady.of_memo rfl) evaluated
      refine ⟨(Steady.kept steady' fun unread r' rule' c' found' _ fits' same => ?_).of_memo rfl, fun unread => ?_⟩
      · obtain ⟨sameRule, sameIndex⟩ := Key.mk.inj same
        cases sameRule
        rw [found] at found'
        cases found'
        cases fits.eq_of_index plain fits' sameIndex
        exact settled unread
      · refine permanent_of_known found ordinary plain closed fits ?_
        obtain ⟨unread', kept⟩ := Session.kept_unread (t := u) unread
        change (s.kept u ⟨.rule r, c.index⟩ o').memo.lookup _ = _
        rw [kept, Session.lookup_remember]
        cases inside : u.memo.lookup ⟨.rule r, c.index⟩ with
        | none => rw [if_pos ⟨rfl, inside⟩]
        | some entry =>
            -- the rule was remembered while its own body ran, with the same outcome
            obtain ⟨o₁, rfl, -, -⟩ := sound'.readable inside plain closed fits
            cases (settled unread').unique (steady' r rule c o₁ found mode fits inside) sound'
            rw [if_neg (by simp [Session.resume, inside])]
            exact inside

theorem leftRecursive_steady (mode : rule.mode = .leftRecursive)
    (ran : Runner.leftRecursive (.rule r) rule.title (g.run fuel rule.body) c s = .ok (o, t)) :
    g.Steady st t ∧ (t.readsBelow s.growing.length = false → g.Permanent st t.memo (.rule r) c o) := by
  refine ⟨?_, fun unread => permanent_of_known found (by simp [mode]) plain closed fits
    (Runner.leftRecursive_remembers found mode plain closed fits sound rule.title pass ran unread)⟩
  cases inFlight : s.growing.lookup ⟨.rule r, c.index⟩ with
  | some growth =>
      rw [Runner.leftRecursive_seed rule.title _ inFlight] at ran
      cases ran
      exact steady.of_memo rfl
  | none =>
      cases known : (s.memo.lookup ⟨.rule r, c.index⟩).bind (·.outcome? c.context.isSome) with
      | some o' =>
          obtain ⟨u, alike, hit⟩ := Runner.leftRecursive_hit rule.title (g.run fuel rule.body) inFlight known
          rw [hit] at ran
          cases ran
          exact steady.of_memo alike.memo
      | none =>
          obtain ⟨before, rest, remains, -, -⟩ := fits.remaining
          obtain ⟨start, alike, grows⟩ := Runner.leftRecursive_grow rule.title remains inFlight known
          rw [grows] at ran
          obtain ⟨⟨o', u⟩, grown, result⟩ := bind_eq_ok.1 ran
          cases result
          have begun := (alike.sound (sound.congr rfl rfl)).begin ⟨r, rule, rfl, found, mode⟩
            (fun _ _ => by rw [alike.memo]; exact Runner.miss_unknown sound fits plain closed known)
            (Runner.firstSeed_follows fits rule.title rest)
          have steady' : g.Steady st u := Runner.growFrom_keeps (I := g.Steady st) inFlight pass
            (fun t o u sound steady ran => (body t.counted o u (sound.congr rfl rfl) (steady.of_memo rfl) ran).1)
            (fun t f steady => steady.of_memo rfl) (fun t o _ _ steady => steady.of_memo rfl) begun
            (.begin alike _ _) (steady.of_memo (t := start.begin _ _) alike.memo) grown
          refine (steady'.of_memo (t := u.finish ⟨.rule r, c.index⟩) rfl).kept ?_
          intro _ r' rule' c' found' mode' _ same
          obtain ⟨sameRule, -⟩ := Key.mk.inj same
          cases sameRule
          rw [found] at found'
          cases found'
          rw [mode] at mode'
          cases mode'

end Rule

theorem run_steady (plain : st.plain) (closed : st.closed) (free : g.InterceptFree e) (fits : c.Fits st)
    (sound : s.Sound g st) (steady : g.Steady st s) (ran : g.run fuel e c s = .ok (o, t)) :
    g.Steady st t ∧ (t.readsBelow s.growing.length = false → g.Permanent st t.memo e c o) := by
  induction fuel, e, free using InterceptFree.induct generalizing c s o t with
  | zero e free => cases ran
  | composite fuel e free composite ih =>
      have orderly := e.routine_disciplined composite fits (Expr.description g.rules) fuel
      rw [g.run_composite composite] at ran
      obtain ⟨steady', repeats⟩ := orderly.repeats (I := g.Steady st) (K := Session.Remembers)
        (fun p part _ => free.part part) (fun _ _ steady => steady.of_memo rfl)
        (fun _ _ _ alike known => known.alike alike) (fun _ _ _ continues known => known.before continues)
        (fun p d s o t part here sound steady ran => ih p part here.fits sound steady ran) sound steady ran
      refine ⟨steady', fun unread u later known => ?_⟩
      obtain ⟨fuel', u', again, alike⟩ := repeats unread u later known
      refine ⟨max fuel fuel' + 1, u', ?_, alike⟩
      rw [g.run_composite composite]
      exact e.routine_below _ (fun e c s => .refl _) (Nat.le_max_left fuel fuel') c u _
        (again _ (Nat.le_max_right fuel fuel'))
  | missing fuel r free found =>
      obtain ⟨failed, rfl⟩ := (run_missing_eq_ok fuel found).1 ran
      exact ⟨steady, fun _ u _ _ => ⟨1, u, (run_missing_eq_ok 0 found).2 ⟨failed, rfl⟩, .refl u⟩⟩
  | plain fuel r rule free found mode ih =>
      rw [run_plain found fuel mode] at ran
      obtain ⟨steady', again⟩ := ih fits sound steady ran
      refine ⟨steady', fun unread u later known => ?_⟩
      obtain ⟨fuel', u', ran', alike⟩ := again unread u later known
      exact ⟨fuel' + 1, u', by rw [run_plain found fuel' mode]; exact ran', alike⟩
  | memo fuel r rule free found mode ih =>
      rw [run_memo found fuel mode] at ran
      exact memo_steady found plain closed fits sound steady
        (fun s sound => run_advances fuel rule.body (fun _ => free.body found) fits sound)
        (fun s o t sound steady ran => ih fits sound steady ran) mode ran
  | leftRecursive fuel r rule free found mode ih =>
      rw [run_leftRecursive found fuel mode] at ran
      exact leftRecursive_steady found plain closed fits sound steady
        (fun s sound => run_advances fuel rule.body (fun _ => free.body found) fits sound)
        (fun s o t sound steady ran => ih fits sound steady ran) mode ran

theorem Reachable.steady (plain : st.plain) (closed : st.closed) (reachable : g.Reachable st s) :
    g.Steady st s := by
  induction reachable with
  | fresh options journal =>
      intro r rule c o found mode fits known
      cases known
  | noted _ f ih => exact ih.of_memo rfl
  | ran before free fits ran ih => exact (run_steady plain closed (free closed) fits before.sound ih ran).1
  | missed _ ih => exact ih.of_memo rfl
  | seeded _ found mode fits remains idle miss ih => exact ih.of_memo rfl
  | grown before free found fits top idle ran _ ih =>
      exact (run_steady plain closed ((free closed).body found) fits before.sound ih ran).1.of_memo rfl

end Grammar

/-- One move of a session: it notes or counts something, puts a rule in flight, grows the seed of the last one, takes
that rule out of flight, or remembers an outcome of a rule that is not in flight. -/
inductive Session.Moves (g : Grammar) (st : Setting) : Session → Session → Prop
  | counts {s t : Session} (options : t.options = s.options) (memo : t.memo = s.memo)
      (growing : t.growing = s.growing) : Moves g st s t
  | begins {s : Session} {key : Key} {seed : Outcome} (rule : g.Grows key.parser) (idle : s.growing.lookup key = none)
      (unknown : s.memo.lookup key = none) (follows : seed.Follows st key.index) : Moves g st s (s.begin key seed)
  | grows {s : Session} {key : Key} {growth : Growth} {base : List (Key × Growth)} {seed : Outcome}
      (top : s.growing = (key, growth) :: base) (idle : base.lookup key = none)
      (follows : seed.Follows st key.index) : Moves g st s (s.grow key seed)
  | finishes {s : Session} {key : Key} {growth : Growth} {base : List (Key × Growth)}
      (top : s.growing = (key, growth) :: base) (idle : base.lookup key = none)
      (lower : ∀ other below, base.lookup other = some below → below.depth < base.length) :
      Moves g st s (s.finish key)
  | remembers {s : Session} {key : Key} {o : Outcome} (idle : s.growing.lookup key = none)
      (follows : o.Follows st key.index) : Moves g st s (s.remember key (.outcome o)).2

abbrev Session.Later (g : Grammar) (st : Setting) : Session → Session → Prop :=
  Relation.ReflTransGen (Session.Moves g st)

namespace Session

theorem Moves.sound (moves : Moves g st s t) (sound : s.Sound g st) : t.Sound g st := by
  cases moves with
  | counts options memo growing => exact sound.congr memo growing
  | begins rule idle unknown follows => exact sound.begin rule (fun _ _ => unknown) follows
  | grows top idle follows => exact sound.grow top idle follows
  | @finishes key growth base top idle lower =>
      let before : Session := { growing := base }
      have below : before.Sound g st := by
        refine ⟨fun _ _ known => (by cases known), fun other growth' found => ?_, fun _ _ _ _ _ => rfl⟩
        have differs : other ≠ key := fun same => by
          rw [same] at found
          exact absurd (found.symm.trans idle) (by simp)
        have inside := sound.growing other growth' (by
          rw [top, List.lookup_cons, beq_eq_false_iff_ne.2 differs]
          exact found)
        exact ⟨inside.seed, lower other growth' found, inside.rule⟩
      exact sound.finish below top idle
  | remembers idle follows => exact sound.remember follows fun _ _ => idle

theorem Moves.remembered (moves : Moves g st s t) {entry : Entry} (known : s.memo.lookup key = some entry) :
    t.memo.lookup key = some entry := by
  cases moves with
  | counts options memo growing => rw [memo, known]
  | begins => exact known
  | grows => exact known
  | finishes => exact known
  | remembers => exact (s.remember_continues _ _).memo key entry known

theorem Later.sound (later : Later g st s t) (sound : s.Sound g st) : t.Sound g st := by
  induction later with
  | refl => exact sound
  | tail _ moves ih => exact moves.sound ih

theorem Later.remembers (later : Later g st s t) : t.Remembers s.memo := by
  intro key entry known
  induction later with
  | refl => exact known
  | tail _ moves ih => exact moves.remembered ih

theorem Later.counts (options : t.options = s.options) (memo : t.memo = s.memo) (growing : t.growing = s.growing) :
    Later g st s t :=
  .single (.counts options memo growing)

theorem Later.kept (idle : u.growing.lookup key = none)
    (follows : o.Follows st key.index) : Later g st u (s.kept u key o) := by
  have resumed : Later g st u (s.resume u) := .counts rfl rfl rfl
  unfold Session.kept
  split
  · exact resumed
  · exact resumed.tail (.remembers idle follows)

end Session

namespace Grammar

section Rule
variable (found : g.rules[r]? = some rule) (sound : s.Sound g st)
  (pass : ∀ s : Session, s.Sound g st → Safely (g.Advances st c.index s) (g.run fuel rule.body c s))
  (moves : ∀ (s : Session) o t, s.Sound g st → g.run fuel rule.body c s = .ok (o, t) → s.Later g st t)
include found sound pass moves

theorem memo_later (mode : rule.mode = .memo)
    (ran : Runner.memo (.rule r) (g.run fuel rule.body) c s = .ok (o, t)) : s.Later g st t := by
  cases known : (s.memo.lookup ⟨.rule r, c.index⟩).bind (·.outcome? c.context.isSome) with
  | some o' =>
      obtain ⟨u, alike, hit⟩ := Runner.memo_hit (g.run fuel rule.body) known
      rw [hit] at ran
      cases ran
      exact .counts alike.options alike.memo alike.growing
  | none =>
      obtain ⟨note, miss⟩ := Runner.memo_miss (g.run fuel rule.body) known
      rw [miss] at ran
      obtain ⟨⟨o', u⟩, evaluated, result⟩ := bind_eq_ok.1 ran
      cases result
      have sound' : s.missed.Sound g st := sound.congr rfl rfl
      have advances := (pass s.missed sound').result evaluated
      have missed : s.Later g st s.missed := .counts rfl rfl rfl
      have idle : u.growing.lookup ⟨.rule r, c.index⟩ = none := by
        refine Option.eq_none_iff_forall_not_mem.2 fun growth inFlight => ?_
        obtain ⟨r', rule', same, found', mode'⟩ := (advances.sound.growing _ growth inFlight).rule
        cases same
        rw [found] at found'
        cases found'
        rw [mode] at mode'
        cases mode'
      have kept : u.Later g st (s.kept u ⟨.rule r, c.index⟩ o') := .kept idle advances.follows
      exact ((missed.trans (moves _ _ _ sound' evaluated)).trans kept).tail (.counts rfl rfl rfl)

theorem leftRecursive_later (mode : rule.mode = .leftRecursive) (plain : st.plain) (closed : st.closed)
    (fits : c.Fits st)
    (ran : Runner.leftRecursive (.rule r) rule.title (g.run fuel rule.body) c s = .ok (o, t)) : s.Later g st t := by
  cases inFlight : s.growing.lookup ⟨.rule r, c.index⟩ with
  | some growth =>
      rw [Runner.leftRecursive_seed rule.title _ inFlight] at ran
      cases ran
      exact .counts rfl rfl rfl
  | none =>
      cases known : (s.memo.lookup ⟨.rule r, c.index⟩).bind (·.outcome? c.context.isSome) with
      | some o' =>
          obtain ⟨u, alike, hit⟩ := Runner.leftRecursive_hit rule.title (g.run fuel rule.body) inFlight known
          rw [hit] at ran
          cases ran
          exact .counts alike.options alike.memo alike.growing
      | none =>
          obtain ⟨before, rest, remains, -, -⟩ := fits.remaining
          obtain ⟨start, alike, grows⟩ := Runner.leftRecursive_grow rule.title remains inFlight known
          rw [grows] at ran
          obtain ⟨⟨o', u⟩, grown, result⟩ := bind_eq_ok.1 ran
          cases result
          have unknown : start.memo.lookup ⟨.rule r, c.index⟩ = none := by
            rw [alike.memo]
            exact Runner.miss_unknown sound fits plain closed known
          have follows := Runner.firstSeed_follows fits rule.title rest
          have begun := (alike.sound (sound.congr rfl rfl)).begin ⟨r, rule, rfl, found, mode⟩
            (fun _ _ => unknown) follows
          obtain ⟨follows', -, above⟩ :=
            (Runner.grown_safely found mode fits sound inFlight known pass alike rule.title rest _ _).result grown
          have popped := above.finish inFlight
          obtain ⟨growth, top⟩ := above.growing
          have started : s.Later g st start := .counts alike.options alike.memo alike.growing
          have seeded := started.tail (.begins ⟨r, rule, rfl, found, mode⟩ (alike.growing ▸ inFlight) unknown follows)
          have later : s.Later g st u := by
            refine Runner.growFrom_keeps (I := fun t => s.Later g st t) inFlight pass ?_ ?_ ?_ begun
              (.begin alike _ _) seeded grown
            · intro t o u sound later ran
              have counted : t.Later g st t.counted := .counts rfl rfl rfl
              exact (later.trans counted).trans (moves t.counted o u (sound.congr rfl rfl) ran)
            · intro t f later
              exact later.tail (.counts rfl rfl rfl)
            · intro t o above follows later
              obtain ⟨growth, top⟩ := above.growing
              exact later.tail (.grows top inFlight follows)
          have finished := later.tail
            (.finishes top inFlight fun other below found => (sound.growing other below found).depth)
          exact finished.trans (Session.Later.kept (popped ▸ inFlight) follows')

end Rule

theorem run_later (plain : st.plain) (closed : st.closed) (free : g.InterceptFree e) (fits : c.Fits st)
    (sound : s.Sound g st) (ran : g.run fuel e c s = .ok (o, t)) : s.Later g st t := by
  induction fuel, e, free using InterceptFree.induct generalizing c s o t with
  | zero e free => cases ran
  | composite fuel e free composite ih =>
      have orderly := e.routine_disciplined composite fits (Expr.description g.rules) fuel
      rw [g.run_composite composite] at ran
      refine (orderly.keeps (I := fun u => u.Sound g st ∧ s.Later g st u) ?_ ?_ ⟨sound, .refl⟩ ran).2.2
      · rintro u f ⟨sound, later⟩
        exact ⟨(Session.Alike.annotate u f).sound sound, later.tail (.counts rfl rfl rfl)⟩
      · rintro p d u o v part here ⟨sound, later⟩ ran
        have advances := (run_advances fuel p (fun _ => free.part part) here.fits sound).result ran
        exact ⟨advances.follows, advances.sound, later.trans (ih p part here.fits sound ran)⟩
  | missing fuel r free found =>
      obtain ⟨-, rfl⟩ := (run_missing_eq_ok fuel found).1 ran
      exact .refl
  | plain fuel r rule free found mode ih =>
      rw [run_plain found fuel mode] at ran
      exact ih fits sound ran
  | memo fuel r rule free found mode ih =>
      rw [run_memo found fuel mode] at ran
      exact memo_later found sound
        (fun s sound => run_advances fuel rule.body (fun _ => free.body found) fits sound)
        (fun s o t sound ran => ih fits sound ran) mode ran
  | leftRecursive fuel r rule free found mode ih =>
      rw [run_leftRecursive found fuel mode] at ran
      exact leftRecursive_later found sound
        (fun s sound => run_advances fuel rule.body (fun _ => free.body found) fits sound)
        (fun s o t sound ran => ih fits sound ran) mode plain closed fits ran

/-- A run leaves a later session of the parse. If it read no seed of a rule in flight, as is always so when none is in
flight, its outcome is settled: in every later session, be it in the middle of other evaluations, the same expression
gives the same outcome at the same place and changes neither the tables nor the counters of left recursion. -/
theorem settled_stable (g : Grammar) (e : Expr) (c : Cursor) (s : Session) (fuel : Nat) (o : Outcome) (t : Session)
    (free : g.InterceptFree e) (boundary : (Text.dropBytes? c.index c.text).isSome) (plain : c.context = none)
    (reachable : g.Reachable ⟨c.text, true, true⟩ s) (ran : g.run fuel e c s = .ok (o, t)) :
    s.Later g ⟨c.text, true, true⟩ t ∧ ∃ provisional, s.tracked (g.run fuel e c) = .ok (o, provisional, t) ∧
      (s.growing = [] → provisional = false) ∧
      (provisional = false → ∀ u, t.Later g ⟨c.text, true, true⟩ u →
        ∃ fuel' u', g.run fuel' e c u = .ok (o, u') ∧ u'.memo = u.memo ∧ u'.growing = u.growing ∧
          u'.passes = u.passes ∧ u'.reentries = u.reentries) := by
  let st : Setting := ⟨c.text, true, true⟩
  have fits : c.Fits st := ⟨rfl, boundary, fun _ => plain⟩
  have sound : s.Sound g st := reachable.sound
  refine ⟨run_later rfl rfl free fits sound ran, ?_⟩
  obtain ⟨v, untracked, rfl, tracked⟩ := tracked_run free fits sound ran
  refine ⟨_, tracked, fun idle => ?_, fun unread u later => ?_⟩
  · rw [idle]
    exact v.readsBelow_zero
  · have steady : g.Steady st s.untracked := (reachable.steady rfl rfl).of_memo rfl
    have permanent := (run_steady (s := s.untracked) rfl rfl free fits (sound.congr rfl rfl) steady untracked).2 unread
    have sound' := ((run_advances fuel e (fun _ => free) fits sound).result ran).sound
    obtain ⟨fuel', u', again, alike⟩ := permanent u (later.sound sound') later.remembers
    exact ⟨fuel', u', again, alike.memo, alike.growing, alike.passes, alike.reentries⟩

theorem settled_stable_inside_growth :
    let g : Grammar := { rules := [
      ⟨.memo, "item", .pair (.rule 1) (.prim (.char '!'))⟩,
      ⟨.leftRecursive, "number", .orElse (.pair (.rule 1) (.prim .digit)) (.prim .digit)⟩,
      ⟨.leftRecursive, "list", .orElse (.pair (.rule 2) (.rule 0)) (.rule 0)⟩] }
    let c : Cursor := ⟨['7', '!'], 0, none⟩
    ∃ o t, g.run 6 (.rule 0) c (.fresh {} {}) = .ok (o, t) ∧
      ∃ fuel u, g.run fuel (.rule 0) c (t.begin ⟨.rule 2, 0⟩ (Runner.firstSeed "list" c c.text)) = .ok (o, u) ∧
        u.passes = t.passes := by
  intro g c
  have free : g.InterceptFree (.rule 0) := .of_isSimple rfl rfl
  have leaves : (g.run 6 (.rule 0) c (.fresh {} {})).toOption.map
      (fun r => (r.2.growing.length, r.2.remembers ⟨.rule 2, 0⟩)) = some (0, false) := by
    decide +kernel
  cases ran : g.run 6 (.rule 0) c (.fresh {} {}) with
  | error halt => simp [ran, Except.toOption] at leaves
  | ok r =>
      obtain ⟨o, t⟩ := r
      simp only [ran, Except.toOption, Option.map_some, Option.some.injEq, Prod.mk.injEq] at leaves
      obtain ⟨-, provisional, -, unread, stable⟩ :=
        settled_stable g (.rule 0) c (.fresh {} {}) 6 o t free (by decide) rfl (.fresh {} {}) ran
      have idle : t.growing.lookup ⟨.rule 2, 0⟩ = none := by simp [List.eq_nil_of_length_eq_zero leaves.1]
      have seed : (Runner.firstSeed "list" c c.text).Follows ⟨c.text, true, true⟩ 0 :=
        ⟨⟨rfl, rfl, fun _ => rfl⟩, Nat.le_refl 0⟩
      obtain ⟨fuel, u, again, -, -, passes, -⟩ := stable (unread rfl) _
        (.single (.begins ⟨2, _, rfl, rfl, rfl⟩ idle (Session.remembers_eq_false.1 leaves.2) seed))
      exact ⟨o, t, rfl, fuel, u, again, passes⟩

end Grammar
end ParseEngine
