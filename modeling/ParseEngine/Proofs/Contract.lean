import ParseEngine.Proofs.Coupling
import ParseEngine.Proofs.Rule

/-!
Contracts between a run and its session.

A contract says in which sessions and at which cursors an expression may run, and what its outcome is like. It is
lawful if parsers without parts, adapters and the operations on the tables keep it; then every run of the grammar
fulfils it. A run can also be altered in every run inside it, and an alteration that leaves the runs as they are
which fulfil a lawful contract is never noticed.
-/

namespace ParseEngine

def Grammar.level (g : Grammar) (fuel : Nat) (run : Engine) (body : Nat → Rule → Runner) : Expr → Runner
  | .rule r =>
      match g.rules[r]? with
      | some rule => .inMode (.rule r) rule.title (body r rule) rule.mode
      | none => fun c s => do return (← Prim.orphan.run c, s)
  | .intercept interceptor p => .intercept g.identify interceptor (run p)
  | e => fun c => e.routine (Expr.description g.rules) fuel c run

structure Alteration where
  run : Expr → Runner → Runner
  body : Nat → Runner → Runner := fun _ p => p

def Grammar.runAltered (g : Grammar) (alteration : Alteration) : Nat → Expr → Runner
  | 0, _ => .exhausted
  | fuel + 1, e =>
      let run := g.runAltered alteration fuel
      alteration.run e (g.level fuel run (fun r rule => alteration.body r (run rule.body)) e)

theorem Grammar.run_succ (g : Grammar) (fuel : Nat) (e : Expr) :
    g.run (fuel + 1) e = g.level fuel (g.run fuel) (fun _ rule => g.run fuel rule.body) e := by
  cases e <;> rfl

theorem Runner.leftRecursive_halts {id : ParserId} {c : Cursor} {s : Session} {halt : Halt} (title : String)
    (body : Runner) (halts : c.remaining = .error halt) (idle : s.growing.lookup ⟨id, c.index⟩ = none)
    (miss : (s.memo.lookup ⟨id, c.index⟩).bind (·.outcome? c.context.isSome) = none) :
    leftRecursive id title body c s = .error halt := by
  -- the first seed cannot be made, so the body is not run
  have unseen : Outcome.failAt ("left recursion: no answer yet for " ++ title) c = .error halt := by
    rw [Outcome.failAt, Cursor.preview, halts]
    rfl
  rw [leftRecursive, Session.seed?, idle]
  simp only [Session.consult, miss, Session.tracked_eq, growSeed, unseen, error_bind]
  by_cases remembered : s.remembers ⟨id, c.index⟩ = true
  · simp only [if_pos remembered]
  · simp only [if_neg remembered]

inductive Prim.Ends (p : Prim) (c : Cursor) : Outcome → Prop
  | success (v : Value) {d : Cursor} (context : d.context.isSome = c.context.isSome) : Ends p c (.success v d)
  | failure (message : String) {d : Cursor} {found : String} (context : d.context = c.context)
      (shown : d.preview = .ok found) : Ends p c (.failure message d found)
  | told {count : Nat} {message description found : String} {d : Cursor} (context : d.context = c.context)
      (same : p = .failAfter count message description (some found)) : Ends p c (.failure message d found)

theorem Cursor.advance_context {c d : Cursor} {bytes : Nat} (moved : c.advance bytes = .ok d) :
    d.context = c.context := by
  simp only [Cursor.advance, Cursor.moveTo] at moved
  split at moved
  · cases moved
    rfl
  · cases moved

namespace Prim
variable {p : Prim} {c d : Cursor} {o : Outcome}

theorem Ends.failAt {message : String} (context : d.context = c.context)
    (failed : Outcome.failAt message d = .ok o) : p.Ends c o := by
  obtain ⟨found, shown, rfl⟩ := Outcome.failAt_eq_ok failed
  exact .failure message context shown

theorem Ends.advanced {v : Value} {bytes : Nat}
    (ended : (do return .success v (← c.advance bytes) : Except Halt Outcome) = .ok o) : p.Ends c o := by
  obtain ⟨d, moved, same⟩ := bind_eq_ok.1 ended
  cases same
  exact .success v (congrArg _ (Cursor.advance_context moved))

theorem run_ends (ran : p.run c = .ok o) : p.Ends c o := by
  cases p with
  | literal text =>
      obtain ⟨rest, -, ran⟩ := bind_eq_ok.1 ran
      split at ran
      · exact .advanced ran
      · obtain ⟨d, moved, failed⟩ := bind_eq_ok.1 ran
        exact .failAt (Cursor.advance_context moved) failed
  | one kind description test =>
      obtain ⟨rest, -, ran⟩ := bind_eq_ok.1 ran
      split at ran
      · split at ran
        · exact .advanced ran
        · exact .failAt rfl ran
      · exact .failAt rfl ran
  | spaces =>
      obtain ⟨rest, -, ran⟩ := bind_eq_ok.1 ran
      exact .advanced ran
  | pattern q =>
      obtain ⟨rest, -, ran⟩ := bind_eq_ok.1 ran
      split at ran
      · exact .advanced ran
      · exact .failAt rfl ran
  | integer =>
      obtain ⟨rest, -, ran⟩ := bind_eq_ok.1 ran
      split at ran
      · split at ran
        · exact .advanced ran
        · exact .failAt rfl ran
      · exact .failAt rfl ran
  | number =>
      obtain ⟨rest, -, ran⟩ := bind_eq_ok.1 ran
      split at ran
      · exact .advanced ran
      · exact .failAt rfl ran
  | succeed v =>
      cases ran
      exact .success v rfl
  | fail message => exact .failAt rfl ran
  | endOfInput =>
      simp only [run] at ran
      split at ran
      · cases ran
        exact .success .unit rfl
      · exact .failAt rfl ran
  | position =>
      cases ran
      exact .success _ rfl
  | readContext =>
      cases ran
      exact .success _ rfl
  | updateContext f =>
      cases ran
      exact .success .unit (by simp [Cursor.withContext])
  | failAfter count message description found =>
      obtain ⟨rest, -, ran⟩ := bind_eq_ok.1 ran
      obtain ⟨d, moved, ran⟩ := bind_eq_ok.1 ran
      have context := Cursor.advance_context moved
      split at ran
      · cases ran
        exact .told context rfl
      · exact .failAt context ran
  | orphan => exact .failAt rfl ran

end Prim

/-- What is expected of the runs of expressions, each at cursors that all carry a context or all carry none. -/
structure Contract where
  allowed : Bool → Expr → Prop
  place : Bool → Cursor → Prop
  gives : Bool → Outcome → Prop
  ready : Session → Prop

namespace Contract

structure Fulfils (K : Contract) (contextual : Bool) (s : Session) (r : Outcome × Session) : Prop where
  gives : K.gives contextual r.1
  ready : K.ready r.2
  continues : s.Continues r.2

abbrev Agree (K : Contract) (contextual : Bool) (s : Session) :
    Except Halt (Outcome × Session) → Except Halt (Outcome × Session) → Prop :=
  Alongside fun r r' => r = r' ∧ K.Fulfils contextual s r

structure Lawful (K : Contract) (g : Grammar) : Prop where
  part : ∀ {b e p}, K.allowed b e → (∀ q, e ≠ .detached q) → p.Part e → K.allowed b p
  detached : ∀ {b p}, K.allowed b (.detached p) → K.allowed false p
  body : ∀ {b r rule}, K.allowed b (.rule r) → g.rules[r]? = some rule → K.allowed b rule.body
  success : ∀ {b v c}, K.gives b (.success v c) ↔ K.place b c
  failed : ∀ {b message c found}, K.place b c → c.preview = .ok found → K.gives b (.failure message c found)
  reworded : ∀ {b message c found} (other), K.gives b (.failure message c found) → K.gives b (.failure other c found)
  rebuilt : ∀ {b message c found shown}, K.gives b (.failure message c found) → c.preview = .ok shown →
    K.gives b (.failure message c shown)
  prim : ∀ {b p c o}, K.allowed b (.prim p) → K.place b c → p.run c = .ok o → K.gives b o
  pattern : ∀ {b c o} (p : Pattern), K.place b c → (Prim.pattern p).run c = .ok o → K.gives b o
  dropped : ∀ {b c}, K.place b c → K.place false { c with context := none }
  restored : ∀ {b c o}, K.place b c → K.gives false o →
    K.gives b (o.withCursor { o.cursor with context := c.context })
  fresh : ∀ journal, K.ready (.fresh {} journal)
  tables : ∀ {s t}, K.ready s → t.memo = s.memo → t.growing = s.growing → K.ready t
  hit : ∀ {b r c s entry o}, K.allowed b (.rule r) → K.place b c → K.ready s →
    s.memo.lookup ⟨.rule r, c.index⟩ = some entry → entry.outcome? c.context.isSome = some o → K.gives b o
  seed : ∀ {b r c s growth}, K.allowed b (.rule r) → K.place b c → K.ready s →
    s.growing.lookup ⟨.rule r, c.index⟩ = some growth → K.gives b growth.seed
  begins : ∀ {b r rule c s seed}, K.allowed b (.rule r) → g.rules[r]? = some rule → rule.mode = .leftRecursive →
    K.place b c → K.ready s → s.growing.lookup ⟨.rule r, c.index⟩ = none →
    (s.memo.lookup ⟨.rule r, c.index⟩).bind (·.outcome? c.context.isSome) = none → K.gives b seed →
    K.ready (s.begin ⟨.rule r, c.index⟩ seed)
  grows : ∀ {b r c t growth base seed}, K.allowed b (.rule r) → K.place b c → K.ready t →
    t.growing = (⟨.rule r, c.index⟩, growth) :: base → base.lookup ⟨.rule r, c.index⟩ = none → K.gives b seed →
    K.ready (t.grow ⟨.rule r, c.index⟩ seed)
  finishes : ∀ {s t key growth}, K.ready t → K.ready s → t.growing = (key, growth) :: s.growing →
    s.growing.lookup key = none → K.ready (t.finish key)
  remembers : ∀ {b r rule c t o}, K.allowed b (.rule r) → g.rules[r]? = some rule → K.place b c → K.ready t →
    rule.mode = .memo ∨ rule.mode = .leftRecursive ∧ t.growing.lookup ⟨.rule r, c.index⟩ = none → K.gives b o →
    K.ready (t.remember ⟨.rule r, c.index⟩ (.outcome o)).2
  planted : ∀ {b name label v asByte p c s}, K.allowed b (.intercept (.put name label v asByte) p) → K.place b c →
    K.ready s → K.ready (s.remember ⟨g.identify name, c.index⟩
      (if asByte then .byte v.toByte c else .outcome (.success v c))).2

/-- An alteration that leaves runs as they are which fulfil the contract. While the body of a left-recursive rule
runs, the rule is in flight. -/
structure Harmless (K : Contract) (g : Grammar) (alteration : Alteration) : Prop where
  run : ∀ e p c s, K.ready s → (∀ o t, p c s = .ok (o, t) → K.ready t ∧ s.Continues t) →
    alteration.run e p c s = p c s
  body : ∀ r rule p c s, g.rules[r]? = some rule →
    (rule.mode = .leftRecursive → (s.growing.lookup ⟨.rule r, c.index⟩).isSome) →
    (∀ o t, p c s = .ok (o, t) → s.Continues t) → alteration.body r p c s = p c s

def coupling (K : Contract) (contextual : Bool) (s : Session) : Coupling where
  place := K.place contextual
  outcomes o o' := o = o' ∧ K.gives contextual o
  sessions t := K.ready t ∧ s.Continues t

variable {K : Contract} {g : Grammar} {b : Bool} {e : Expr} {r : Nat} {rule : Rule} {c : Cursor} {s t : Session}
  {o : Outcome} {p p' : Runner}

theorem Fulfils.after (continues : s.Continues t) {r : Outcome × Session} (fulfils : K.Fulfils b t r) :
    K.Fulfils b s r :=
  ⟨fulfils.gives, fulfils.ready, continues.trans fulfils.continues⟩

theorem Agree.after {x y : Except Halt (Outcome × Session)} (continues : s.Continues t) (agree : K.Agree b t x y) :
    K.Agree b s x y :=
  agree.weaken fun _ _ related => ⟨related.1, related.2.after continues⟩

namespace Lawful

theorem coupling (lawful : K.Lawful g) : (K.coupling b s).Lawful where
  success _ _ place := ⟨rfl, lawful.success.2 place⟩
  failed _ _ _ place shown := ⟨rfl, lawful.failed place shown⟩
  pattern p _ _ place ran := ⟨rfl, lawful.pattern p place ran⟩
  cases o _ := by
    rintro ⟨rfl, gives⟩
    cases o with
    | success v c => exact .success v (lawful.success.1 gives)
    | failure message c found => exact .failure message rfl fun other => ⟨rfl, lawful.reworded other gives⟩
  noted t f := fun ⟨ready, continues⟩ => ⟨lawful.tables ready rfl rfl, continues.trans (.annotate t f)⟩

theorem annotate (lawful : K.Lawful g) (fulfils : K.Fulfils b s (o, t)) (f : Journal → Journal) :
    K.Fulfils b s (o, t.annotate f) :=
  ⟨fulfils.gives, lawful.tables fulfils.ready rfl rfl, fulfils.continues.trans (.annotate t f)⟩

theorem alike (lawful : K.Lawful g) (ready : K.ready s) (alike : t.Alike s) (gives : K.gives b o) :
    K.Fulfils b s (o, t) :=
  ⟨gives, lawful.tables ready alike.memo alike.growing, alike.continues⟩

theorem kept (lawful : K.Lawful g) (allowed : K.allowed b (.rule r)) (found : g.rules[r]? = some rule)
    (place : K.place b c) (ready : K.ready t)
    (mode : rule.mode = .memo ∨ rule.mode = .leftRecursive ∧ t.growing.lookup ⟨.rule r, c.index⟩ = none)
    (gives : K.gives b o) : K.ready (s.kept t ⟨.rule r, c.index⟩ o) := by
  have resumed : K.ready (s.resume t) := lawful.tables ready rfl rfl
  unfold Session.kept
  split
  · exact resumed
  · exact lawful.remembers allowed found place resumed mode gives

theorem failHere (lawful : K.Lawful g) (message : String) (place : K.place b c) (ready : K.ready s) :
    K.Agree b s (Runner.failHere message c s) (Runner.failHere message c s) := by
  refine .same fun result failed => ⟨rfl, ?_⟩
  obtain ⟨o, t⟩ := result
  obtain ⟨found, shown, rfl, rfl⟩ := Runner.failHere_eq_ok failed
  exact lawful.alike ready (.refl t) (lawful.failed place shown)

section Memo
variable (lawful : K.Lawful g) (allowed : K.allowed b (.rule r)) (found : g.rules[r]? = some rule)
  (place : K.place b c) (ready : K.ready s)
  (body : ∀ s, K.ready s → (rule.mode = .leftRecursive → (s.growing.lookup ⟨.rule r, c.index⟩).isSome) →
    K.Agree b s (p' c s) (p c s))
include lawful allowed found place ready body

theorem memo (mode : rule.mode = .memo) :
    K.Agree b s (Runner.memo (.rule r) p' c s) (Runner.memo (.rule r) p c s) := by
  cases known : (s.memo.lookup ⟨.rule r, c.index⟩).bind (·.outcome? c.context.isSome) with
  | some o =>
      have same : Runner.memo (.rule r) p' c s = Runner.memo (.rule r) p c s := by
        simp only [Runner.memo, Session.consult, known]
      obtain ⟨t, alike, ran⟩ := Runner.memo_hit p known
      obtain ⟨entry, known', read⟩ := Option.bind_eq_some_iff.1 known
      rw [same, ran]
      exact .ok ⟨rfl, lawful.alike ready alike (lawful.hit allowed place ready known' read)⟩
  | none =>
      have free : rule.mode = .leftRecursive → (s.missed.growing.lookup ⟨.rule r, c.index⟩).isSome :=
        fun grows => absurd (mode.symm.trans grows) (by simp)
      obtain ⟨evaluated, fulfils⟩ := (body s.missed (lawful.tables ready rfl rfl) free).eq
      have same : Runner.memo (.rule r) p' c s = Runner.memo (.rule r) p c s := by
        simp only [Runner.memo, Session.consult, known, Session.tracked_eq]
        change (p' c s.missed >>= _) >>= _ = (p c s.missed >>= _) >>= _
        rw [evaluated]
      obtain ⟨note, ran⟩ := Runner.memo_miss p known
      rw [same, ran]
      refine Alongside.bind (R := fun x y => x = y ∧ K.Fulfils b s.missed x)
        (.same fun result given => ⟨rfl, fulfils result given⟩) ?_
      rintro ⟨o, t⟩ _ ⟨rfl, fulfils⟩
      have continues : s.Continues (s.kept t ⟨.rule r, c.index⟩ o) :=
        Session.kept_continues fulfils.continues.options fulfils.continues.growing fulfils.continues.memo
      have kept : K.Fulfils b s (o, s.kept t ⟨.rule r, c.index⟩ o) :=
        ⟨fulfils.gives, lawful.kept allowed found place fulfils.ready (.inl mode) fulfils.gives, continues⟩
      exact .ok ⟨rfl, lawful.annotate kept (note o t)⟩

omit found ready in
theorem growFrom (cap : Nat) (idle : s.growing.lookup ⟨.rule r, c.index⟩ = none) (left grown : Nat)
    (begun : K.ready t) (above : s.Above ⟨.rule r, c.index⟩ t) :
    Alongside (fun x y => x = y ∧ K.gives b x.1 ∧ K.ready x.2 ∧ s.Above ⟨.rule r, c.index⟩ x.2)
      (Runner.growFrom (.rule r) cap p' left grown c t) (Runner.growFrom (.rule r) cap p left grown c t) := by
  induction left generalizing grown t with
  | zero => exact .error .outOfFuel
  | succ left ih =>
      rw [Runner.growFrom_succ, Runner.growFrom_succ]
      have before : (t.counted.growing.lookup ⟨.rule r, c.index⟩).isSome := by
        obtain ⟨growth, inFlight⟩ := above.lookup
        exact Option.isSome_iff_exists.2 ⟨growth, inFlight⟩
      refine (body t.counted (lawful.tables begun rfl rfl) fun _ => before).bind ?_
      rintro ⟨pass, u⟩ _ ⟨rfl, fulfils⟩
      -- the pass leaves the rule on top, so its seed can be compared, grown and taken out of flight
      have above' := above.continues (t.counted_continues.trans fulfils.continues)
      obtain ⟨growth, top⟩ := above'.growing
      have inFlight : u.growing.lookup ⟨.rule r, c.index⟩ = some growth := by rw [top, List.lookup_cons_self]
      rcases Runner.turn_cases inFlight cap grown pass with
        ⟨-, turned⟩ | ⟨-, -, note, turned⟩ | ⟨-, -, note, turned⟩
      · rw [turned, Runner.Turn.follow, Runner.Turn.follow]
        refine .ok ⟨rfl, ?_, fulfils.ready, above'⟩
        dsimp only
        split
        · exact fulfils.gives
        · exact lawful.seed allowed place fulfils.ready inFlight
      · rw [turned, Runner.Turn.follow, Runner.Turn.follow]
        exact .ok ⟨rfl, fulfils.gives, lawful.tables fulfils.ready rfl rfl, above'.continues (.annotate u note)⟩
      · rw [turned, Runner.Turn.follow, Runner.Turn.follow]
        have noted : K.ready (u.annotate note) := lawful.tables fulfils.ready rfl rfl
        have above'' := above'.continues (.annotate u note)
        exact ih _ (lawful.grows allowed place noted top idle fulfils.gives) (above''.grow idle pass)

theorem leftRecursive (mode : rule.mode = .leftRecursive) (title : String) :
    K.Agree b s (Runner.leftRecursive (.rule r) title p' c s) (Runner.leftRecursive (.rule r) title p c s) := by
  cases inFlight : s.growing.lookup ⟨.rule r, c.index⟩ with
  | some growth =>
      rw [Runner.leftRecursive_seed title p' inFlight, Runner.leftRecursive_seed title p inFlight]
      have gives := lawful.seed allowed place ready inFlight
      exact .ok ⟨rfl, gives, lawful.tables ready rfl rfl, s.reread_continues growth⟩
  | none =>
      cases known : (s.memo.lookup ⟨.rule r, c.index⟩).bind (·.outcome? c.context.isSome) with
      | some o =>
          obtain ⟨entry, known', read⟩ := Option.bind_eq_some_iff.1 known
          have remembered : s.remembers ⟨.rule r, c.index⟩ = true := by
            rw [Session.remembers, known', Option.isSome_some]
          have same : Runner.leftRecursive (.rule r) title p' c s = Runner.leftRecursive (.rule r) title p c s := by
            simp only [Runner.leftRecursive, Session.seed?, inFlight, remembered, if_true, Session.consult, known]
          obtain ⟨t, alike, ran⟩ := Runner.leftRecursive_hit title p inFlight known
          rw [same, ran]
          exact .ok ⟨rfl, lawful.alike ready alike (lawful.hit allowed place ready known' read)⟩
      | none =>
          cases remains : c.remaining with
          | error halt =>
              rw [Runner.leftRecursive_halts title p' remains inFlight known,
                Runner.leftRecursive_halts title p remains inFlight known]
              exact .error halt
          | ok rest =>
              obtain ⟨start, alike, grows⟩ := Runner.leftRecursive_grow title remains inFlight known
              have shown : c.preview = .ok (Cursor.previewOf rest) := by
                rw [Cursor.preview, remains]
                rfl
              have seed : K.gives b (Runner.firstSeed title c rest) := lawful.failed place shown
              have begun : K.ready (start.begin ⟨.rule r, c.index⟩ (Runner.firstSeed title c rest)) := by
                refine lawful.begins allowed found mode place (lawful.tables ready alike.memo alike.growing) ?_ ?_ seed
                · rw [alike.growing]
                  exact inFlight
                · rw [alike.memo]
                  exact known
              rw [grows, grows]
              refine (lawful.growFrom allowed place body _ inFlight _ _ begun (.begin alike _ _)).bind ?_
              rintro ⟨o, t⟩ _ ⟨rfl, gives, ready', above⟩
              obtain ⟨growth, top⟩ := above.growing
              have popped := above.finish inFlight
              have finished := lawful.finishes ready' ready top inFlight
              refine .ok ⟨rfl, gives, ?_, Session.kept_continues above.options popped above.memo⟩
              exact lawful.kept allowed found place finished (.inr ⟨mode, popped ▸ inFlight⟩) gives

end Memo

theorem intercept (lawful : K.Lawful g) {interceptor : Interceptor} {q : Expr}
    (allowed : K.allowed b (.intercept interceptor q)) (place : K.place b c) (ready : K.ready s)
    (part : ∀ s, K.ready s → K.Agree b s (p' c s) (p c s)) :
    K.Agree b s (Runner.intercept g.identify interceptor p' c s) (Runner.intercept g.identify interceptor p c s) := by
  have annotated (s : Session) (ready : K.ready s) (f : Journal → Journal) :
      K.Agree b s (p' c (s.annotate f)) (p c (s.annotate f)) :=
    (part (s.annotate f) (lawful.tables ready rfl rfl)).after (.annotate s f)
  obtain ⟨how, intercepts, same⟩ := Runner.intercept_eq g.identify interceptor c s
  rw [same, same]
  cases intercepts with
  | noted f after =>
      refine (annotated s ready f).bind ?_
      rintro ⟨o, t⟩ _ ⟨rfl, fulfils⟩
      exact .ok ⟨rfl, lawful.annotate fulfils (after o t)⟩
  | refused message f after =>
      have noted : K.ready (s.annotate f) := lawful.tables ready rfl rfl
      refine ((lawful.failHere message place noted).after (.annotate s f)).bind ?_
      rintro ⟨o, t⟩ _ ⟨rfl, fulfils⟩
      exact .ok ⟨rfl, lawful.annotate fulfils after⟩
  | tracked after =>
      refine (part s.untracked (lawful.tables ready rfl rfl)).bind ?_
      rintro ⟨o, t⟩ _ ⟨rfl, fulfils⟩
      have resumed : K.Fulfils b s (o, s.resume t) :=
        ⟨fulfils.gives, lawful.tables fulfils.ready rfl rfl, fulfils.continues.resume⟩
      exact .ok ⟨rfl, lawful.annotate resumed (after o t)⟩
  | repeated after =>
      refine (part s ready).bind ?_
      rintro ⟨o, t⟩ _ ⟨rfl, fulfils⟩
      refine (part t fulfils.ready).bind ?_
      rintro ⟨o', u⟩ _ ⟨rfl, fulfils'⟩
      exact .ok ⟨rfl, lawful.annotate (fulfils'.after fulfils.continues) (after o o')⟩
  | apart =>
      refine (part _ (lawful.fresh s.journal)).bind ?_
      rintro ⟨o, t⟩ _ ⟨rfl, fulfils⟩
      exact .ok ⟨rfl, lawful.alike ready ⟨rfl, rfl, rfl, rfl, rfl, rfl⟩ fulfils.gives⟩
  | rebuilt =>
      refine (part s ready).bind ?_
      rintro ⟨o, t⟩ _ ⟨rfl, fulfils⟩
      cases o with
      | success v d => exact .ok ⟨rfl, fulfils⟩
      | failure message d found =>
          refine .same fun result failed => ⟨rfl, ?_⟩
          obtain ⟨o, u⟩ := result
          obtain ⟨found', shown, rfl, rfl⟩ := Runner.failHere_eq_ok failed
          exact ⟨lawful.rebuilt fulfils.gives shown, fulfils.ready, fulfils.continues⟩
  | mapped f =>
      refine (part s ready).bind ?_
      rintro ⟨o, t⟩ _ ⟨rfl, fulfils⟩
      refine .ok ⟨rfl, ?_, fulfils.ready, fulfils.continues⟩
      cases o with
      | success v d => exact lawful.success.2 (lawful.success.1 fulfils.gives)
      | failure message d found => exact fulfils.gives
  | @read name label growth inFlight f =>
      have reread : K.ready (s.reread growth) := lawful.tables ready rfl rfl
      exact (annotated _ reread f).after (s.reread_continues growth)
  | planted f =>
      exact (annotated _ (lawful.planted allowed place ready) f).after (s.remember_continues _ _)

theorem level (lawful : K.Lawful g) (fuel : Nat) {run run' : Engine} {body' : Nat → Rule → Runner}
    (engines : ∀ b e c s, K.allowed b e → K.place b c → K.ready s → K.Agree b s (run' e c s) (run e c s))
    (bodies : ∀ b r rule c s, K.allowed b (.rule r) → g.rules[r]? = some rule → K.place b c → K.ready s →
      (rule.mode = .leftRecursive → (s.growing.lookup ⟨.rule r, c.index⟩).isSome) →
      K.Agree b s (body' r rule c s) (run rule.body c s))
    (allowed : K.allowed b e) (place : K.place b c) (ready : K.ready s) :
    K.Agree b s (g.level fuel run' body' e c s) (g.level fuel run (fun _ rule => run rule.body) e c s) := by
  by_cases composite : e.isComposite = true
  · by_cases attached : ∀ p, e ≠ .detached p
    · have parts (q : Expr) (part : q.Part e) : (K.coupling b s).Runs (run' q) (run q) := by
        intro d t place reached
        refine (engines b q d t (lawful.part allowed attached part) place reached.1).weaken ?_
        rintro ⟨o, u⟩ _ ⟨rfl, fulfils⟩
        exact ⟨⟨rfl, fulfils.gives⟩, rfl, fulfils.ready, reached.2.trans fulfils.continues⟩
      have whole := lawful.coupling.routine composite attached (Expr.description g.rules) fuel
        (fun p d o same place ran => ⟨rfl, lawful.prim (same ▸ allowed) place ran⟩) parts c s place ⟨ready, .refl s⟩
      cases e with
      | rule r => cases composite
      | intercept interceptor p => cases composite
      | _ =>
          refine whole.weaken ?_
          rintro ⟨o, t⟩ ⟨_, _⟩ ⟨⟨rfl, gives⟩, rfl, ready, continues⟩
          exact ⟨rfl, gives, ready, continues⟩
    · simp only [ne_eq, not_forall, not_not] at attached
      obtain ⟨p, rfl⟩ := attached
      refine (engines false p _ s (lawful.detached allowed) (lawful.dropped place) ready).bind ?_
      rintro ⟨o, t⟩ _ ⟨rfl, fulfils⟩
      exact .ok ⟨rfl, lawful.restored place fulfils.gives, fulfils.ready, fulfils.continues⟩
  · cases e with
    | rule r =>
        simp only [Grammar.level]
        cases found : g.rules[r]? with
        | none => exact lawful.failHere "recursive rule invoked before its definition completed" place ready
        | some rule =>
            have body (s : Session) (ready : K.ready s) := bodies b r rule c s allowed found place ready
            dsimp only
            cases mode : rule.mode with
            | plain => exact body s ready fun grows => absurd (mode.symm.trans grows) (by simp)
            | memo => exact lawful.memo allowed found place ready body mode
            | leftRecursive => exact lawful.leftRecursive allowed found place ready body mode rule.title
    | intercept interceptor p =>
        refine lawful.intercept allowed place ready fun s ready => engines b p c s ?_ place ready
        exact lawful.part allowed (fun _ => Expr.noConfusion) .intercept
    | _ => exact absurd rfl composite

/-- Every run fulfils a lawful contract, and a harmless alteration is never noticed. -/
theorem run (lawful : K.Lawful g) {alteration : Alteration} (harmless : K.Harmless g alteration) (fuel : Nat)
    (allowed : K.allowed b e) (place : K.place b c) (ready : K.ready s) :
    K.Agree b s (g.runAltered alteration fuel e c s) (g.run fuel e c s) := by
  induction fuel generalizing b e c s with
  | zero => exact .error .outOfFuel
  | succ fuel ih =>
      let run := g.runAltered alteration fuel
      have bodies (b : Bool) (r : Nat) (rule : Rule) (c : Cursor) (s : Session) (allowed : K.allowed b (.rule r))
          (found : g.rules[r]? = some rule) (place : K.place b c) (ready : K.ready s)
          (inFlight : rule.mode = .leftRecursive → (s.growing.lookup ⟨.rule r, c.index⟩).isSome) :
          K.Agree b s (alteration.body r (run rule.body) c s) (g.run fuel rule.body c s) := by
        have agree := ih (lawful.body allowed found) place ready
        rw [harmless.body r rule _ c s found inFlight]
        · exact agree
        · intro o t ran
          exact (agree.eq.2 (o, t) (agree.eq.1 ▸ ran)).continues
      have agree := lawful.level fuel (fun _ _ _ _ allowed place ready => ih allowed place ready) bodies
        allowed place ready
      rw [g.run_succ, Grammar.runAltered, harmless.run _ _ _ _ ready]
      · exact agree
      · intro o t ran
        have fulfils := agree.eq.2 (o, t) (agree.eq.1 ▸ ran)
        exact ⟨fulfils.ready, fulfils.continues⟩

theorem ran (lawful : K.Lawful g) {fuel : Nat} {result : Outcome × Session} (allowed : K.allowed b e)
    (place : K.place b c) (ready : K.ready s) (ran : g.run fuel e c s = .ok result) : K.Fulfils b s result := by
  have harmless : K.Harmless g { run := fun _ p => p } :=
    ⟨fun _ _ _ _ _ _ => rfl, fun _ _ _ _ _ _ _ _ => rfl⟩
  exact (lawful.run harmless fuel allowed place ready).eq.2 result ran

end Lawful
end Contract
end ParseEngine
