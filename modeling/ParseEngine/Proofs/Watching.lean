import ParseEngine.Proofs.Contract
import ParseEngine.Proofs.Progress

/-!
Watched runs.

A watch notes events of a run: the seeds that are read, and the evaluations of bodies that end. A watched run halts at
the first event that raises an alarm. So a run that returns has a list of events, and whether an alarm is noticed
depends on nothing but this list. What the events say about the sessions before and after a run is an account of it; it
is lawful if it can be put together from the accounts of the runs inside.
-/

namespace ParseEngine

def Grammar.seedKey? (g : Grammar) (c : Cursor) : Expr → Option Key
  | .rule r =>
      match g.rules[r]? with
      | some rule => if rule.mode = .leftRecursive then some ⟨.rule r, c.index⟩ else none
      | none => none
  | .intercept (.seed name _) _ => some ⟨g.identify name, c.index⟩
  | _ => none

def Grammar.reads? (g : Grammar) (e : Expr) (c : Cursor) (s : Session) : Option (Key × Growth) :=
  (g.seedKey? c e).bind fun key => (s.growing.lookup key).map (key, ·)

def Expr.opensSession : Expr → Bool
  | .intercept .fresh _ => true
  | _ => false

structure Watch (ε : Type) where
  read : Key × Growth → List ε := fun _ => []
  ended : Nat → Cursor → Session → Session → List ε := fun _ _ _ _ => []

namespace Watch
variable {ε : Type}

def body (watch : Watch ε) (alarm : ε → Bool) (stop : Halt) (r : Nat) (p : Runner) : Runner := fun c s => do
  let (o, t) ← p c s
  if (watch.ended r c s t).any alarm then .error stop else return (o, t)

/-- Runs an expression and halts at the first event that raises the alarm. A session that an interceptor opens for
itself is not watched. -/
def run (watch : Watch ε) (g : Grammar) (alarm : ε → Bool) (stop : Halt) : Nat → Expr → Runner
  | 0, _ => .exhausted
  | fuel + 1, e => fun c s =>
      let run := if e.opensSession then g.run fuel else watch.run g alarm stop fuel
      let body (r : Nat) (rule : Rule) : Runner := watch.body alarm stop r (run rule.body)
      if ((g.reads? e c s).elim [] watch.read).any alarm then .error stop else g.level fuel run body e c s

end Watch

def Noticed {ε α : Type} (events : List ε) (x : (ε → Bool) → Halt → Except Halt α) (y : α) : Prop :=
  ∀ alarm stop, x alarm stop = if events.any alarm then .error stop else .ok y

namespace Noticed
variable {ε α β : Type} {events later : List ε} {x : (ε → Bool) → Halt → Except Halt α} {a : α} {b : β}

theorem none (y : α) : Noticed ([] : List ε) (fun _ _ => .ok y) y :=
  fun _ _ => rfl

theorem bind {f : (ε → Bool) → Halt → α → Except Halt β} (first : Noticed events x a)
    (second : Noticed later (fun alarm stop => f alarm stop a) b) :
    Noticed (events ++ later) (fun alarm stop => x alarm stop >>= f alarm stop) b := by
  intro alarm stop
  simp only [first alarm stop, List.any_append]
  cases events.any alarm with
  | true => rfl
  | false => exact second alarm stop

theorem map (f : α → β) (first : Noticed events x a) :
    Noticed events (fun alarm stop => x alarm stop >>= fun a => .ok (f a)) (f a) := by
  have whole := first.bind (f := fun _ _ a => .ok (f a)) (Noticed.none (f a))
  rwa [List.append_nil] at whole

theorem body (watch : Watch ε) {run : (ε → Bool) → Halt → Runner} {c : Cursor} {s t : Session} {o : Outcome} (r : Nat)
    (noticed : Noticed events (fun alarm stop => run alarm stop c s) (o, t)) :
    Noticed (events ++ watch.ended r c s t) (fun alarm stop => watch.body alarm stop r (run alarm stop) c s) (o, t) :=
  noticed.bind (f := fun alarm stop x => if (watch.ended r c s x.2).any alarm then .error stop else .ok x)
    fun _ _ => rfl

end Noticed

theorem Runner.memo_evaluates {id : ParserId} {c : Cursor} {s : Session} (p : Runner)
    (miss : (s.memo.lookup ⟨id, c.index⟩).bind (·.outcome? c.context.isSome) = none) :
    memo id p c s = p c s.missed >>= fun r => memo id (fun _ _ => .ok r) c s := by
  simp only [memo, Session.consult, miss, Session.tracked_eq, ok_bind]
  change (p c s.missed >>= _) >>= _ = _
  rw [bind_assoc]
  rfl

structure Session.Quiet (s t : Session) : Prop where
  memo : t.memo = s.memo
  read : t.shallowestRead = s.shallowestRead
  misses : t.memoMisses = s.memoMisses

theorem Session.Quiet.refl (s : Session) : s.Quiet s :=
  ⟨rfl, rfl, rfl⟩

structure Account (ε : Type) where
  allowed : Expr → Prop
  ready : Session → Prop
  holds : Session → List ε → Session → Prop

namespace Account
variable {ε : Type}

/-- An account that depends on the memo table, the rules in flight before the run, the reads and the misses alone. -/
structure Composes (A : Account ε) : Prop where
  still : ∀ {s t : Session}, s.Quiet t → A.holds s [] t
  trans : ∀ {s t t' u : Session} {events later}, A.holds s events t → A.holds t' later u → t.Quiet t' →
    s.growing <:+ t'.growing → A.holds s (events ++ later) u
  resume : ∀ {s t events}, A.holds s.untracked events t → A.holds s events (s.resume t)
  remember : ∀ {s} key entry, A.holds s [] (s.remember key entry).2

structure Lawful (A : Account ε) (g : Grammar) (st : Setting) (watch : Watch ε) : Prop extends A.Composes where
  part : ∀ {e p}, A.allowed e → p.Part e → A.allowed p
  body : ∀ {r rule}, A.allowed (.rule r) → g.rules[r]? = some rule → A.allowed rule.body
  free : ∀ {e}, A.allowed e → st.closed → g.InterceptFree e
  sound : ∀ {s}, A.ready s → s.Sound g st
  tables : ∀ {s t : Session}, A.ready s → t.memo = s.memo → t.growing = s.growing → A.ready t
  ran : ∀ {e} {c : Cursor} {s fuel o t}, A.allowed e → c.Fits st → A.ready s → g.run fuel e c s = .ok (o, t) → A.ready t
  begins : ∀ {r rule} {c : Cursor} {s : Session} {seed : Outcome}, g.rules[r]? = some rule →
    rule.mode = .leftRecursive → c.Fits st → A.ready s → s.growing.lookup ⟨.rule r, c.index⟩ = none →
    (s.memo.lookup ⟨.rule r, c.index⟩).bind (·.outcome? c.context.isSome) = none → seed.Follows st c.index →
    A.ready (s.begin ⟨.rule r, c.index⟩ seed)
  grows : ∀ {s t : Session} {key growth} {o : Outcome}, A.ready t → t.growing = (key, growth) :: s.growing →
    s.growing.lookup key = none → o.Follows st key.index → A.ready (t.grow key o)
  planted : ∀ {name label v asByte p} {c : Cursor} {s : Session},
    A.allowed (.intercept (.put name label v asByte) p) → c.Fits st → A.ready s →
    A.ready (s.remember ⟨g.identify name, c.index⟩
      (if asByte then .byte v.toByte c else .outcome (.success v c))).2
  vain : ∀ {r} {c : Cursor} {s : Session}, c.Fits st → A.ready s →
    (s.memo.lookup ⟨.rule r, c.index⟩).bind (·.outcome? c.context.isSome) = none →
    A.holds s [] (s.asked ⟨.rule r, c.index⟩)
  read : ∀ {s : Session} {key growth}, A.ready s → s.growing.lookup key = some growth →
    A.holds s (watch.read (key, growth)) (s.reread growth)
  ended : ∀ {r rule} {c : Cursor} {s : Session} {fuel o t events}, A.allowed (.rule r) → g.rules[r]? = some rule →
    rule.mode ≠ .memo → c.Fits st → A.ready s →
    (rule.mode = .leftRecursive → (s.growing.lookup ⟨.rule r, c.index⟩).isSome) →
    g.run fuel rule.body c s = .ok (o, t) → A.holds s events t → A.holds s (events ++ watch.ended r c s t) t
  memo : ∀ {r rule} {c : Cursor} {s : Session} {fuel o t events}, A.allowed (.rule r) → g.rules[r]? = some rule →
    rule.mode = .memo → c.Fits st → A.ready s →
    (s.memo.lookup ⟨.rule r, c.index⟩).bind (·.outcome? c.context.isSome) = none →
    g.run fuel rule.body c s.missed = .ok (o, t) → A.holds s.missed events t →
    A.holds s (events ++ watch.ended r c s.missed t) (s.kept t ⟨.rule r, c.index⟩ o)

def Gives (A : Account ε) {α : Type} (s : Session) (x : (ε → Bool) → Halt → Except Halt (α × Session))
    (y : α × Session) : Prop :=
  ∃ events, Noticed events x y ∧ A.holds s events y.2

theorem Gives.level {A : Account ε} {g : Grammar} {watch : Watch ε} {c : Cursor} {s : Session} {fuel : Nat} {e : Expr}
    {y : Outcome × Session} (silent : g.reads? e c s = none) (watched : e.opensSession = false)
    (given : A.Gives s (fun alarm stop => g.level fuel (watch.run g alarm stop fuel)
      (fun r rule => watch.body alarm stop r (watch.run g alarm stop fuel rule.body)) e c s) y) :
    A.Gives s (fun alarm stop => watch.run g alarm stop (fuel + 1) e c s) y := by
  obtain ⟨events, noticed, holds⟩ := given
  refine ⟨events, fun alarm stop => ?_, holds⟩
  simp only [Watch.run, silent, watched, Option.elim_none, List.any_nil, Bool.false_eq_true, if_false]
  exact noticed alarm stop

namespace Composes
variable {A : Account ε} (composes : A.Composes) {α β : Type} {s t t' u : Session} {events later : List ε}
include composes

theorem before (holds : A.holds t events u) (quiet : s.Quiet t) (growing : s.growing <:+ t.growing) :
    A.holds s events u :=
  composes.trans (composes.still (.refl s)) holds quiet growing

theorem after (holds : A.holds s events t) (quiet : t.Quiet u) (growing : s.growing <:+ t.growing) :
    A.holds s events u := by
  have whole := composes.trans holds (composes.still quiet) (.refl t) growing
  rwa [List.append_nil] at whole

theorem kept {key : Key} {o : Outcome} (holds : A.holds s.untracked events t) (growing : s.growing <:+ t.growing) :
    A.holds s events (s.kept t key o) := by
  have resumed := composes.resume holds
  unfold Session.kept
  split
  · exact resumed
  · have whole := composes.trans resumed (composes.remember key (.outcome o)) (.refl _) growing
    rwa [List.append_nil] at whole

theorem rebase {x : (ε → Bool) → Halt → Except Halt (α × Session)} {y : α × Session} (given : A.Gives t x y)
    (quiet : s.Quiet t) (growing : s.growing <:+ t.growing) : A.Gives s x y := by
  obtain ⟨events, noticed, holds⟩ := given
  exact ⟨events, noticed, composes.before holds quiet growing⟩

theorem bind {x : (ε → Bool) → Halt → Except Halt (α × Session)} {a : α}
    {f : (ε → Bool) → Halt → α × Session → Except Halt (β × Session)} {y : β × Session} (first : A.Gives s x (a, t))
    (second : A.Gives t' (fun alarm stop => f alarm stop (a, t)) y) (quiet : t.Quiet t')
    (growing : s.growing <:+ t'.growing) :
    A.Gives s (fun alarm stop => x alarm stop >>= f alarm stop) y := by
  obtain ⟨events, noticed, holds⟩ := first
  obtain ⟨later, noticed', holds'⟩ := second
  exact ⟨events ++ later, noticed.bind noticed', composes.trans holds holds' quiet growing⟩

theorem same {a : α} (quiet : s.Quiet t) : A.Gives s (fun _ _ => .ok (a, t)) (a, t) :=
  ⟨[], .none _, composes.still quiet⟩

end Composes

namespace Lawful
variable {A : Account ε} {g : Grammar} {st : Setting} {watch : Watch ε} (lawful : A.Lawful g st watch)
  {c : Cursor} {s t : Session} {o : Outcome} {r fuel : Nat} {rule : Rule}
include lawful

theorem orderly {D : Discipline} {α : Type} {P : α → Prop} {R : Routine α} (orderly : Routine.Orderly D P R)
    {run : Engine} (run' : (ε → Bool) → Halt → Engine)
    (parts : ∀ e c (s : Session) o t, D.parts e → D.Allows c → A.ready s → run e c s = .ok (o, t) →
      o.Follows D.setting c.index ∧ A.ready t ∧ t.growing = s.growing ∧
        A.Gives s (fun alarm stop => run' alarm stop e c s) (o, t))
    (ready : A.ready s) {a : α} (ran : R run s = .ok (a, t)) :
    A.Gives s (fun alarm stop => R (run' alarm stop) s) (a, t) := by
  induction orderly generalizing s with
  | done result =>
      cases ran
      exact lawful.same ⟨rfl, rfl, rfl⟩
  | exhausted lossy => cases ran
  | note f _ ih =>
      have noted : A.ready (s.annotate f) := lawful.tables ready rfl rfl
      exact lawful.rebase (ih noted ran) ⟨rfl, rfl, rfl⟩ List.suffix_rfl
  | ask part here _ ih =>
      obtain ⟨⟨o, u⟩, ran, ran'⟩ := bind_eq_ok.1 ran
      obtain ⟨follows, ready', growing, given⟩ := parts _ _ _ _ _ part here ready ran
      exact lawful.bind given (ih o follows ready' ran') ⟨rfl, rfl, rfl⟩ (growing ▸ List.suffix_rfl)

section Rule
variable (allowed : A.allowed (.rule r)) (found : g.rules[r]? = some rule) (fits : c.Fits st)
  {run' : (ε → Bool) → Halt → Runner}
  (part : ∀ s o t, A.ready s → g.run fuel rule.body c s = .ok (o, t) →
    A.Gives s (fun alarm stop => run' alarm stop c s) (o, t))
include allowed found fits part

theorem body_gives (mode : rule.mode ≠ .memo) (ready : A.ready s)
    (inFlight : rule.mode = .leftRecursive → (s.growing.lookup ⟨.rule r, c.index⟩).isSome)
    (ran : g.run fuel rule.body c s = .ok (o, t)) :
    A.Gives s (fun alarm stop => watch.body alarm stop r (run' alarm stop) c s) (o, t) := by
  obtain ⟨events, noticed, holds⟩ := part s o t ready ran
  exact ⟨events ++ watch.ended r c s t, noticed.body watch r,
    lawful.ended allowed found mode fits ready inFlight ran holds⟩

theorem memo_gives (mode : rule.mode = .memo) (ready : A.ready s)
    (ran : Runner.memo (.rule r) (g.run fuel rule.body) c s = .ok (o, t)) :
    A.Gives s (fun alarm stop => Runner.memo (.rule r) (watch.body alarm stop r (run' alarm stop)) c s) (o, t) := by
  cases known : (s.memo.lookup ⟨.rule r, c.index⟩).bind (·.outcome? c.context.isSome) with
  | some o' =>
      have hit (p : Runner) : Runner.memo (.rule r) p c s =
          .ok (o', Session.log { s with memoHits := s.memoHits + 1 } (.memoHit (.rule r) c.index)) := by
        simp only [Runner.memo, Session.consult, known]
      rw [hit] at ran
      cases ran
      simp only [hit]
      exact lawful.same ⟨rfl, rfl, rfl⟩
  | none =>
      rw [Runner.memo_evaluates _ known] at ran
      obtain ⟨⟨o', u⟩, evaluated, stored⟩ := bind_eq_ok.1 ran
      have missed : A.ready s.missed := lawful.tables ready rfl rfl
      obtain ⟨events, noticed, holds⟩ := part s.missed o' u missed evaluated
      obtain ⟨note, kept⟩ := Runner.memo_miss (fun _ _ => .ok (o', u)) known
      rw [stored, ok_bind] at kept
      cases kept
      have advances := (Grammar.run_advances fuel rule.body (lawful.free (lawful.body allowed found)) fits
        (lawful.sound missed)).result evaluated
      have growing : (s.kept u ⟨.rule r, c.index⟩ o').growing = s.growing :=
        (Session.kept_growing s u _ o').trans advances.continues.growing
      refine ⟨events ++ watch.ended r c s.missed u, ?_, ?_⟩
      · have last : Noticed ([] : List ε) (fun _ _ => Runner.memo (.rule r) (fun _ _ => .ok (o', u)) c s) _ :=
          fun _ _ => stored
        have whole := (noticed.body watch r).bind (f := fun _ _ x => Runner.memo (.rule r) (fun _ _ => .ok x) c s) last
        rw [List.append_nil] at whole
        intro alarm stop
        rw [← whole alarm stop]
        exact Runner.memo_evaluates _ known
      · have holds' := lawful.memo allowed found mode fits ready known evaluated holds
        exact lawful.after holds' ⟨rfl, rfl, rfl⟩ (growing ▸ List.suffix_rfl)

theorem growFrom_gives (mode : rule.mode = .leftRecursive) {cap left grown : Nat} {growth : Growth} {u v : Session}
    (base : Session) (idle : s.growing.lookup ⟨.rule r, c.index⟩ = none) (ready : A.ready u)
    (top : u.growing = (⟨.rule r, c.index⟩, growth) :: s.growing) (quiet : base.Quiet u)
    (growing : base.growing = s.growing)
    (ran : Runner.growFrom (.rule r) cap (g.run fuel rule.body) left grown c u = .ok (o, v)) :
    A.Gives base (fun alarm stop =>
      Runner.growFrom (.rule r) cap (watch.body alarm stop r (run' alarm stop)) left grown c u) (o, v) := by
  induction left generalizing grown growth base u with
  | zero => cases ran
  | succ left ih =>
      rw [Runner.growFrom_succ] at ran
      obtain ⟨⟨pass, w⟩, passed, ran⟩ := bind_eq_ok.1 ran
      have counted : A.ready u.counted := lawful.tables ready rfl rfl
      have advances := (Grammar.run_advances fuel rule.body (lawful.free (lawful.body allowed found)) fits
        (lawful.sound counted)).result passed
      have above : u.counted.growing.lookup ⟨.rule r, c.index⟩ = some growth := by
        rw [Session.counted, top, List.lookup_cons_self]
      have below : base.growing <:+ u.counted.growing := by
        rw [Session.counted, growing, top]
        exact List.suffix_cons _ _
      have first := lawful.rebase (lawful.body_gives allowed found fits part (by simp [mode]) counted
        (fun _ => by simp [above]) passed) ⟨quiet.memo, quiet.read, quiet.misses⟩ below
      have top' : w.growing = (⟨.rule r, c.index⟩, growth) :: s.growing := advances.continues.growing.trans top
      have inFlight : w.growing.lookup ⟨.rule r, c.index⟩ = some growth := by rw [top', List.lookup_cons_self]
      have still : base.growing <:+ w.growing := by
        rw [growing, top']
        exact List.suffix_cons _ _
      simp only [Runner.growFrom_succ]
      rcases Runner.turn_cases inFlight cap grown pass with ⟨-, turned⟩ | ⟨-, -, note, turned⟩ | ⟨-, -, note, turned⟩
      · simp only [turned, Runner.Turn.follow] at ran
        cases ran
        refine lawful.bind first ?_ ⟨rfl, rfl, rfl⟩ still
        simp only [turned, Runner.Turn.follow]
        exact lawful.same ⟨rfl, rfl, rfl⟩
      · simp only [turned, Runner.Turn.follow] at ran
        cases ran
        refine lawful.bind first ?_ ⟨rfl, rfl, rfl⟩ still
        simp only [turned, Runner.Turn.follow]
        exact lawful.same ⟨rfl, rfl, rfl⟩
      · simp only [turned, Runner.Turn.follow] at ran
        have noted : A.ready (w.annotate note) :=
          lawful.tables (lawful.ran (lawful.body allowed found) fits counted passed) rfl rfl
        -- the next pass is told from a session with the rules in flight that the growth began above
        let next : Session := { w with growing := s.growing }
        have rest : A.Gives next (fun alarm stop => (Runner.turn (.rule r) cap grown c pass w).follow fun grown =>
            Runner.growFrom (.rule r) cap (watch.body alarm stop r (run' alarm stop)) left grown c) (o, v) := by
          simp only [turned, Runner.Turn.follow]
          exact ih next (lawful.grows noted top' idle advances.follows) (Session.grow_growing top' idle)
            ⟨rfl, rfl, rfl⟩ rfl ran
        exact lawful.bind first rest ⟨rfl, rfl, rfl⟩ (growing ▸ List.suffix_rfl)

theorem growSeed_gives (mode : rule.mode = .leftRecursive) (ready : A.ready s)
    (idle : s.growing.lookup ⟨.rule r, c.index⟩ = none)
    (miss : (s.memo.lookup ⟨.rule r, c.index⟩).bind (·.outcome? c.context.isSome) = none)
    (ran : Runner.growSeed (.rule r) rule.title (g.run fuel rule.body) c s = .ok (o, t)) :
    t.growing = s.growing ∧ A.Gives s (fun alarm stop =>
      Runner.growSeed (.rule r) rule.title (watch.body alarm stop r (run' alarm stop)) c s) (o, t) := by
  obtain ⟨before, rest, remains, -, -⟩ := fits.remaining
  rw [Runner.growSeed_eq remains] at ran
  obtain ⟨⟨o', v⟩, grown, same⟩ := bind_eq_ok.1 ran
  cases same
  have begun : A.ready (s.begin ⟨.rule r, c.index⟩ (Runner.firstSeed rule.title c rest)) :=
    lawful.begins found mode fits ready idle miss (Runner.firstSeed_follows fits rule.title rest)
  have above : s.Above ⟨.rule r, c.index⟩ (s.begin ⟨.rule r, c.index⟩ (Runner.firstSeed rule.title c rest)) :=
    ⟨rfl, ⟨_, rfl⟩, fun _ _ known => known⟩
  have progress (s : Session) (sound : s.Sound g st) :=
    Grammar.run_advances fuel rule.body (lawful.free (lawful.body allowed found)) fits sound
  obtain ⟨-, -, above'⟩ := (Runner.growFrom_safely idle progress _ _ (lawful.sound begun) above).result grown
  obtain ⟨events, noticed, holds⟩ :=
    lawful.growFrom_gives allowed found fits part mode s idle begun rfl ⟨rfl, rfl, rfl⟩ rfl grown
  obtain ⟨growth, top⟩ := above'.growing
  have below : s.growing <:+ v.growing := by
    rw [top]
    exact List.suffix_cons _ _
  refine ⟨above'.finish idle, events, ?_, lawful.after holds ⟨rfl, rfl, rfl⟩ below⟩
  simp only [Runner.growSeed_eq remains]
  exact noticed.map fun x => (x.1, x.2.finish ⟨.rule r, c.index⟩)

theorem leftRecursive_gives (mode : rule.mode = .leftRecursive) (ready : A.ready s)
    (idle : s.growing.lookup ⟨.rule r, c.index⟩ = none)
    (ran : Runner.leftRecursive (.rule r) rule.title (g.run fuel rule.body) c s = .ok (o, t)) :
    A.Gives s (fun alarm stop =>
      Runner.leftRecursive (.rule r) rule.title (watch.body alarm stop r (run' alarm stop)) c s) (o, t) := by
  cases known : (s.memo.lookup ⟨.rule r, c.index⟩).bind (·.outcome? c.context.isSome) with
  | some o' =>
      obtain ⟨entry, known', -⟩ := Option.bind_eq_some_iff.1 known
      have remembered : s.remembers ⟨.rule r, c.index⟩ = true := by
        rw [Session.remembers, known', Option.isSome_some]
      have hit (p : Runner) : Runner.leftRecursive (.rule r) rule.title p c s =
          .ok (o', { s with memoHits := s.memoHits + 1 }) := by
        simp only [Runner.leftRecursive, Session.seed?, idle, remembered, if_true, Session.consult, known]
      rw [hit] at ran
      cases ran
      simp only [hit]
      exact lawful.same ⟨rfl, rfl, rfl⟩
  | none =>
      have grows (body : Runner) := Runner.leftRecursive_miss rule.title body idle known
      rw [grows] at ran
      obtain ⟨⟨o', v⟩, grown, same⟩ := bind_eq_ok.1 ran
      cases same
      have alike := Session.Alike.asked s.untracked ⟨.rule r, c.index⟩
      have untracked : A.ready s.untracked := lawful.tables ready rfl rfl
      have asked := lawful.vain fits untracked known
      obtain ⟨growing, events, noticed, holds⟩ := lawful.growSeed_gives allowed found fits part mode
        (lawful.tables untracked alike.memo alike.growing) (alike.growing ▸ idle) (alike.memo ▸ known) grown
      have growing' : v.growing = s.growing := growing.trans alike.growing
      have whole := lawful.trans asked holds (.refl _) (alike.growing ▸ List.suffix_rfl)
      refine ⟨events, ?_, lawful.kept whole (growing' ▸ List.suffix_rfl)⟩
      simp only [grows]
      exact noticed.map fun x => (x.1, s.kept x.2 ⟨.rule r, c.index⟩ x.1)

end Rule

theorem intercept_gives {interceptor : Interceptor} {p : Expr} (allowed : A.allowed (.intercept interceptor p))
    (watched : (Expr.intercept interceptor p).opensSession = false) (fits : c.Fits st) (ready : A.ready s)
    {run' : (ε → Bool) → Halt → Runner}
    (part : ∀ s o t, A.ready s → g.run fuel p c s = .ok (o, t) →
      A.Gives s (fun alarm stop => run' alarm stop c s) (o, t))
    (unread : ∀ name label, interceptor = .seed name label → s.growing.lookup ⟨g.identify name, c.index⟩ = none)
    (ran : Runner.intercept g.identify interceptor (g.run fuel p) c s = .ok (o, t)) :
    A.Gives s (fun alarm stop => Runner.intercept g.identify interceptor (run' alarm stop) c s) (o, t) := by
  have advances {s : Session} {o : Outcome} {t : Session} (ready : A.ready s) (ran : g.run fuel p c s = .ok (o, t)) :=
    (Grammar.run_advances fuel p (lawful.free (lawful.part allowed .intercept)) fits (lawful.sound ready)).result ran
  obtain ⟨how, intercepts, same⟩ := Runner.intercept_eq g.identify interceptor c s
  simp only [same] at ran ⊢
  cases intercepts with
  | noted f after =>
      obtain ⟨⟨o', u⟩, evaluated, ended⟩ := bind_eq_ok.1 ran
      cases ended
      have ready' : A.ready (s.annotate f) := lawful.tables ready rfl rfl
      have growing := (advances ready' evaluated).continues.growing
      have given : A.Gives s (fun alarm stop => run' alarm stop c (s.annotate f)) (o', u) :=
        lawful.rebase (part _ o' u ready' evaluated) ⟨rfl, rfl, rfl⟩ List.suffix_rfl
      exact lawful.bind given (lawful.same ⟨rfl, rfl, rfl⟩) ⟨rfl, rfl, rfl⟩ (growing ▸ List.suffix_rfl)
  | refused message f after =>
      obtain ⟨⟨o', u⟩, failed, ended⟩ := bind_eq_ok.1 ran
      cases ended
      obtain ⟨found, -, -, rfl⟩ := Runner.failHere_eq_ok failed
      simp only [failed]
      exact lawful.same ⟨rfl, rfl, rfl⟩
  | tracked after =>
      obtain ⟨⟨o', u⟩, evaluated, ended⟩ := bind_eq_ok.1 ran
      cases ended
      have ready' : A.ready s.untracked := lawful.tables ready rfl rfl
      obtain ⟨events, noticed, holds⟩ := part s.untracked _ _ ready' evaluated
      have growing : s.growing <:+ (s.resume u).growing :=
        (advances ready' evaluated).continues.growing ▸ List.suffix_rfl
      exact ⟨events, noticed.map _, lawful.after (lawful.resume holds) ⟨rfl, rfl, rfl⟩ growing⟩
  | repeated after =>
      obtain ⟨⟨o', u⟩, evaluated, rest⟩ := bind_eq_ok.1 ran
      obtain ⟨⟨o'', v⟩, again, ended⟩ := bind_eq_ok.1 rest
      cases ended
      have growing := (advances ready evaluated).continues.growing
      have ready' := lawful.ran (lawful.part allowed .intercept) fits ready evaluated
      have growing' := (advances ready' again).continues.growing
      refine lawful.bind (part s o' u ready evaluated) ?_ ⟨rfl, rfl, rfl⟩ (growing ▸ List.suffix_rfl)
      exact lawful.bind (part u _ v ready' again) (lawful.same ⟨rfl, rfl, rfl⟩) ⟨rfl, rfl, rfl⟩
        (growing' ▸ List.suffix_rfl)
  | apart => cases watched
  | rebuilt =>
      obtain ⟨⟨o', u⟩, evaluated, rest⟩ := bind_eq_ok.1 ran
      have growing := (advances ready evaluated).continues.growing
      refine lawful.bind (part s o' u ready evaluated) ?_ ⟨rfl, rfl, rfl⟩ (growing ▸ List.suffix_rfl)
      cases o' with
      | success v d =>
          cases rest
          exact lawful.same ⟨rfl, rfl, rfl⟩
      | failure message d found =>
          obtain ⟨found', -, -, ended⟩ := Runner.failHere_eq_ok rest
          simp only [rest, ended]
          exact lawful.same ⟨rfl, rfl, rfl⟩
  | mapped f =>
      obtain ⟨⟨o', u⟩, evaluated, ended⟩ := bind_eq_ok.1 ran
      cases ended
      obtain ⟨events, noticed, holds⟩ := part s o' _ ready evaluated
      exact ⟨events, noticed.map _, holds⟩
  | @read name label growth inFlight f =>
      rw [unread name label rfl] at inFlight
      cases inFlight
  | @planted name label v asByte f =>
      let entry := if asByte then Entry.byte v.toByte c else .outcome (.success v c)
      let key : Key := ⟨g.identify name, c.index⟩
      have planted : A.ready (s.remember key entry).2 := lawful.planted allowed fits ready
      obtain ⟨events, noticed, holds⟩ :=
        part ((s.remember key entry).2.annotate f) o t (lawful.tables planted rfl rfl) ran
      have growing : (s.remember key entry).2.growing = s.growing := Session.remember_growing entry
      exact ⟨events, noticed,
        lawful.trans (lawful.remember key entry) holds ⟨rfl, rfl, rfl⟩ (growing ▸ List.suffix_rfl)⟩

theorem level_reads {e : Expr} {key : Key} {growth : Growth} (ready : A.ready s) (asks : g.seedKey? c e = some key)
    (inFlight : s.growing.lookup key = some growth) (watched : e.opensSession = false) {y : Outcome × Session}
    (given : A.Gives (s.reread growth) (fun alarm stop => g.level fuel (watch.run g alarm stop fuel)
      (fun r rule => watch.body alarm stop r (watch.run g alarm stop fuel rule.body)) e c s) y) :
    A.Gives s (fun alarm stop => watch.run g alarm stop (fuel + 1) e c s) y := by
  obtain ⟨events, noticed, holds⟩ := given
  refine ⟨watch.read (key, growth) ++ events, fun alarm stop => ?_,
    lawful.trans (lawful.read ready inFlight) holds ⟨rfl, rfl, rfl⟩ List.suffix_rfl⟩
  have reads : g.reads? e c s = some (key, growth) := by rw [Grammar.reads?, asks, Option.bind_some, inFlight]; rfl
  simp only [Watch.run, reads, watched, Option.elim_some, Bool.false_eq_true, if_false, List.any_append,
    noticed alarm stop]
  cases (watch.read (key, growth)).any alarm <;> rfl

section Level
variable (ih : ∀ {e : Expr} {c : Cursor} {s t : Session} {o : Outcome}, A.allowed e → c.Fits st → A.ready s →
    g.run fuel e c s = .ok (o, t) → A.Gives s (fun alarm stop => watch.run g alarm stop fuel e c s) (o, t))
  (fits : c.Fits st) (ready : A.ready s)
include ih fits ready

theorem composite_gives {e : Expr} (allowed : A.allowed e) (composite : e.isComposite)
    (ran : g.run (fuel + 1) e c s = .ok (o, t)) :
    A.Gives s (fun alarm stop => watch.run g alarm stop (fuel + 1) e c s) (o, t) := by
  have orderly := e.routine_disciplined composite fits (Expr.description g.rules) fuel
  have parts (p : Expr) (d : Cursor) (s : Session) (o : Outcome) (t : Session) (part : p.Part e)
      (here : (e.discipline st c).Allows d) (ready : A.ready s) (ran : g.run fuel p d s = .ok (o, t)) :
      o.Follows st d.index ∧ A.ready t ∧ t.growing = s.growing ∧
        A.Gives s (fun alarm stop => watch.run g alarm stop fuel p d s) (o, t) := by
    have allowed' := lawful.part allowed part
    have advances := (Grammar.run_advances fuel p (lawful.free allowed') here.fits (lawful.sound ready)).result ran
    exact ⟨advances.follows, lawful.ran allowed' here.fits ready ran, advances.continues.growing,
      ih allowed' here.fits ready ran⟩
  rw [g.run_composite composite] at ran
  have given := lawful.orderly orderly (fun alarm stop => watch.run g alarm stop fuel) parts ready ran
  cases e with
  | rule r => cases composite
  | intercept interceptor p => cases composite
  | _ => exact given.level rfl rfl

theorem rule_gives (allowed : A.allowed (.rule r)) (ran : g.run (fuel + 1) (.rule r) c s = .ok (o, t)) :
    A.Gives s (fun alarm stop => watch.run g alarm stop (fuel + 1) (.rule r) c s) (o, t) := by
  cases found : g.rules[r]? with
  | none =>
      have silent : g.reads? (.rule r) c s = none := by simp [Grammar.reads?, Grammar.seedKey?, found]
      refine Gives.level silent rfl ?_
      simp only [Grammar.run_missing fuel found] at ran
      obtain ⟨o', failed, same⟩ := bind_eq_ok.1 ran
      cases same
      simp only [Grammar.level, found, failed, ok_bind]
      exact lawful.same ⟨rfl, rfl, rfl⟩
  | some rule =>
      have part (s : Session) (o : Outcome) (t : Session) (ready : A.ready s)
          (ran : g.run fuel rule.body c s = .ok (o, t)) := ih (lawful.body allowed found) fits ready ran
      have asks : g.seedKey? c (.rule r) = if rule.mode = .leftRecursive then some ⟨.rule r, c.index⟩ else none := by
        simp only [Grammar.seedKey?, found]
      have silent (other : rule.mode ≠ .leftRecursive) : g.reads? (.rule r) c s = none := by
        rw [Grammar.reads?, asks, if_neg other, Option.bind_none]
      cases mode : rule.mode with
      | plain =>
          rw [Grammar.run_plain found fuel mode] at ran
          refine Gives.level (silent (by simp [mode])) rfl ?_
          simp only [Grammar.level, found, mode, Runner.inMode]
          exact lawful.body_gives allowed found fits part (by simp [mode]) ready
            (fun grows => by simp [mode] at grows) ran
      | memo =>
          rw [Grammar.run_memo found fuel mode] at ran
          refine Gives.level (silent (by simp [mode])) rfl ?_
          simp only [Grammar.level, found, mode, Runner.inMode]
          exact lawful.memo_gives allowed found fits part mode ready ran
      | leftRecursive =>
          rw [Grammar.run_leftRecursive found fuel mode] at ran
          rw [if_pos mode] at asks
          cases inFlight : s.growing.lookup ⟨.rule r, c.index⟩ with
          | some growth =>
              rw [Runner.leftRecursive_seed rule.title _ inFlight] at ran
              cases ran
              refine lawful.level_reads ready asks inFlight rfl ?_
              simp only [Grammar.level, found, mode, Runner.inMode, Runner.leftRecursive_seed rule.title _ inFlight]
              exact lawful.same ⟨rfl, rfl, rfl⟩
          | none =>
              refine Gives.level (by rw [Grammar.reads?, asks, Option.bind_some, inFlight]; rfl) rfl ?_
              simp only [Grammar.level, found, mode, Runner.inMode]
              exact lawful.leftRecursive_gives allowed found fits part mode ready inFlight ran

theorem interceptor_gives {interceptor : Interceptor} {p : Expr} (allowed : A.allowed (.intercept interceptor p))
    (ran : g.run (fuel + 1) (.intercept interceptor p) c s = .ok (o, t)) :
    A.Gives s (fun alarm stop => watch.run g alarm stop (fuel + 1) (.intercept interceptor p) c s) (o, t) := by
  have part (s : Session) (o : Outcome) (t : Session) (ready : A.ready s) (ran : g.run fuel p c s = .ok (o, t)) :=
    ih (lawful.part allowed .intercept) fits ready ran
  cases asks : g.reads? (.intercept interceptor p) c s with
  | none =>
      by_cases watched : (Expr.intercept interceptor p).opensSession = false
      · refine Gives.level asks watched (lawful.intercept_gives allowed watched fits ready part ?_ ran)
        rintro name label rfl
        simpa [Grammar.reads?, Grammar.seedKey?] using asks
      · cases interceptor with
        | fresh =>
            obtain ⟨⟨o', u⟩, evaluated, same⟩ := bind_eq_ok.1 ran
            cases same
            refine ⟨[], fun alarm stop => ?_, lawful.still ⟨rfl, rfl, rfl⟩⟩
            simp only [Watch.run, asks, Expr.opensSession, Option.elim_none, List.any_nil, Bool.false_eq_true, if_false]
            exact ran
        | _ => exact absurd rfl watched
  | some entry =>
      obtain ⟨key, growth⟩ := entry
      cases interceptor with
      | seed name label =>
          obtain ⟨growth', inFlight, same⟩ := Option.map_eq_some_iff.1 asks
          cases same
          refine lawful.level_reads ready rfl inFlight rfl ?_
          change Runner.seedNoted _ _ _ c s = _ at ran
          change A.Gives _ (fun alarm stop => Runner.seedNoted _ _ (watch.run g alarm stop fuel p) c s) _
          simp only [Runner.seedNoted, Session.seed?, inFlight] at ran ⊢
          have ready' : A.ready ((s.reread growth).annotate (·.traced (.seed label c.index (some growth.seed)))) :=
            lawful.tables ready rfl rfl
          exact lawful.rebase (part _ o t ready' ran) ⟨rfl, rfl, rfl⟩ List.suffix_rfl
      | _ => cases asks

end Level

theorem run_gives {e : Expr} (allowed : A.allowed e) (fits : c.Fits st) (ready : A.ready s)
    (ran : g.run fuel e c s = .ok (o, t)) : A.Gives s (fun alarm stop => watch.run g alarm stop fuel e c s) (o, t) := by
  induction fuel generalizing e c s o t with
  | zero => cases ran
  | succ fuel ih =>
      by_cases composite : e.isComposite = true
      · exact lawful.composite_gives ih fits ready allowed composite ran
      · cases e with
        | rule r => exact lawful.rule_gives ih fits ready allowed ran
        | intercept interceptor p => exact lawful.interceptor_gives ih fits ready allowed ran
        | _ => exact absurd rfl composite

end Lawful
end Account
end ParseEngine
