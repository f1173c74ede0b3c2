import ParseEngine.Proofs.Contract

/-!
A failed branch leaves no trace in the context.

A failure carries the cursor it lies at, and with it the context that the failed branch had made. Where a run goes on
after a failure, it goes on from the cursor before the branch, so whatever stands in the context of a failure is
forgotten.
-/

namespace ParseEngine

namespace Outcome

def faded : Outcome → Outcome
  | .success v c => .success v c
  | .failure message c found => .failure message { c with context := none } found

def recast (context : Failure → Value) : Outcome → Outcome
  | .success v c => .success v c
  | .failure message c found => .failure message (c.withContext (context ⟨message, c, found⟩)) found

@[simp] theorem faded_recast (context : Failure → Value) (o : Outcome) : (o.recast context).faded = o.faded := by
  cases o <;> rfl

end Outcome

def recasting (context : Expr → Cursor → Session → Failure → Value) : Alteration where
  run e p c s := p c s >>= fun r => .ok (r.1.recast (context e c s), r.2)

def fading : Coupling where
  place _ := True
  outcomes o o' := o.faded = o'.faded
  sessions _ := True

theorem fading_lawful : fading.Lawful where
  success _ _ _ := rfl
  failed _ _ _ _ _ := rfl
  pattern _ _ _ _ _ := rfl
  noted _ _ _ := trivial
  cases o o' same := by
    cases o with
    | success v c =>
        cases o' with
        | success w d =>
            cases same
            exact .success v trivial
        | failure message d found => cases same
    | failure message c found =>
        cases o' with
        | success w d => cases same
        | failure message' d found' =>
            simp only [fading, Outcome.faded, Outcome.failure.injEq, Cursor.mk.injEq, and_true] at same
            obtain ⟨rfl, ⟨text, index⟩, rfl⟩ := same
            exact .failure message index fun other => by simp [fading, Outcome.faded, text, index]

structure Grammar.Memoryless (g : Grammar) (e : Expr) : Prop where
  free : g.InterceptFree e
  plain : ∀ r rule, g.Uses e (.rule r) → g.rules[r]? = some rule → rule.mode = .plain

namespace Grammar
variable {g : Grammar} {e p : Expr}

theorem Memoryless.part (memoryless : g.Memoryless e) (part : p.Part e) : g.Memoryless p :=
  ⟨memoryless.free.part part, fun r rule uses found => memoryless.plain r rule (.part part uses) found⟩

theorem Memoryless.body {r : Nat} {rule : Rule} (memoryless : g.Memoryless (.rule r))
    (found : g.rules[r]? = some rule) : g.Memoryless rule.body :=
  ⟨memoryless.free.body found, fun r rule uses found' => memoryless.plain r rule (.body found uses) found'⟩

theorem detached_fades {p p' : Runner} (part : fading.Runs p p') : fading.Runs (.detached p) (.detached p') := by
  intro c s place ready
  refine fading_lawful.step (part { c with context := none } s place ready) ?_ ?_
  · intro v d t _ _
    exact .ok ⟨rfl, rfl, trivial⟩
  · intro message d d' found t similar _
    have same := similar.outcomes message
    simp only [fading, Outcome.faded, Outcome.failure.injEq, Cursor.mk.injEq, and_true, true_and] at same
    refine .ok ⟨?_, rfl, trivial⟩
    simp [fading, Outcome.faded, Outcome.withCursor, Outcome.cursor, same.1, same.2]

theorem level_fades {run run' : Engine} (engines : ∀ e, g.Memoryless e → fading.Runs (run e) (run' e)) (fuel : Nat)
    (memoryless : g.Memoryless e) : fading.Runs (g.level fuel run (fun _ rule => run rule.body) e)
      (g.level fuel run' (fun _ rule => run' rule.body) e) := by
  have parts (p : Expr) (part : p.Part e) := engines p (memoryless.part part)
  have composite (compound : e.isComposite) (attached : ∀ p, e ≠ .detached p) :=
    fading_lawful.routine compound attached (Expr.description g.rules) fuel (fun _ _ _ _ _ _ => rfl) parts
  cases e with
  | rule r =>
      simp only [level]
      cases found : g.rules[r]? with
      | none => exact fading_lawful.failHere "recursive rule invoked before its definition completed"
      | some rule =>
          dsimp only
          rw [memoryless.plain r rule (.self _) found]
          exact engines rule.body (memoryless.body found)
  | intercept interceptor p => exact absurd (.self _) (memoryless.free interceptor p)
  | detached p => exact detached_fades (parts p .detached)
  | _ => exact composite rfl fun _ => Expr.noConfusion

theorem recasting_fades (context : Expr → Cursor → Session → Failure → Value) (fuel : Nat)
    (memoryless : g.Memoryless e) : fading.Runs (g.runAltered (recasting context) fuel e) (g.run fuel e) := by
  induction fuel generalizing e with
  | zero => exact fun _ _ _ _ => .error .outOfFuel
  | succ fuel ih =>
      intro c s place ready
      rw [run_succ, ← bind_pure (g.level fuel (g.run fuel) _ e c s)]
      refine (level_fades (fun e memoryless => ih memoryless) fuel memoryless c s place ready).bind ?_
      rintro ⟨o, t⟩ ⟨o', _⟩ ⟨outcomes, rfl, ready⟩
      exact .ok ⟨(o.faded_recast _).trans outcomes, rfl, ready⟩

end Grammar

inductive Runner.Rounds (p : Runner) : Cursor → Session → List Value → Cursor → Session → Prop
  | done (c : Cursor) (s : Session) : Rounds p c s [] c s
  | next {c d e : Cursor} {s t u : Session} {v : Value} {vs : List Value} (ran : p c s = .ok (.success v d, t))
      (rest : Rounds p d t vs e u) : Rounds p c s (v :: vs) e u

def Runner.Fails (p : Runner) (c : Cursor) (s t : Session) : Prop :=
  ∃ failure : Failure, p c s = .ok (failure.toOutcome, t)

namespace Runner
variable {p q : Runner} {c d : Cursor} {s t : Session} {v : Value}

theorem adapt_eq_ok {adapter : Adapter} {o : Outcome} (ran : adapt adapter p c s = .ok (o, t)) :
    ∃ o', p c s = .ok (o', t) ∧ adapter.apply c o' = .ok o := by
  obtain ⟨⟨o', t'⟩, ran, rest⟩ := bind_eq_ok.1 ran
  obtain ⟨o'', applied, same⟩ := bind_eq_ok.1 rest
  cases same
  exact ⟨o', ran, applied⟩

theorem lookahead_stays (ran : adapt .lookahead p c s = .ok (.success v d, t)) : d = c := by
  obtain ⟨o, -, applied⟩ := adapt_eq_ok ran
  cases o <;> cases applied
  rfl

theorem unless_stays {what : String} (ran : adapt (.unless what) p c s = .ok (.success v d, t)) : d = c := by
  obtain ⟨o, -, applied⟩ := adapt_eq_ok ran
  cases o with
  | success w e =>
      obtain ⟨found, -, failed⟩ := Outcome.failAt_eq_ok applied
      cases failed
  | failure message e found =>
      cases applied
      rfl

theorem optional_stays (ran : adapt .optional p c s = .ok (.success .absent d, t)) : d = c := by
  obtain ⟨o, -, applied⟩ := adapt_eq_ok ran
  cases o <;> cases applied
  rfl

theorem manyFrom_stops {required : Bool} {fuel : Nat} {collected : List Value}
    (ran : manyFrom required p fuel collected c s = .ok (.success v d, t)) :
    ∃ vs u, v = .list (collected.reverse ++ vs) ∧ p.Rounds c s vs d u ∧ p.Fails d u t := by
  induction fuel generalizing collected c s with
  | zero => cases ran
  | succ fuel ih =>
      obtain ⟨⟨o, s'⟩, first, ran⟩ := bind_eq_ok.1 ran
      cases o with
      | success w e =>
          dsimp only at ran
          split at ran
          · obtain ⟨found, -, failed, -⟩ := failHere_eq_ok ran
            cases failed
          · obtain ⟨vs, u, rfl, rounds, fails⟩ := ih ran
            exact ⟨w :: vs, u, by simp, .next first rounds, fails⟩
      | failure message e found =>
          dsimp only at ran
          split at ran
          · cases ran
          · cases ran
            exact ⟨[], s, by simp, .done _ s, ⟨message, e, found⟩, first⟩

theorem separatedFrom_stops {fuel : Nat} {collected : List Value}
    (ran : separatedFrom p q fuel collected c s = .ok (.success v d, t)) :
    ∃ vs u, v = .list (collected.reverse ++ vs) ∧ (q.andThen fun _ => p).Rounds c s vs d u ∧
      (q.andThen fun _ => p).Fails d u t := by
  induction fuel generalizing collected c s with
  | zero => cases ran
  | succ fuel ih =>
      obtain ⟨⟨o, s'⟩, first, ran⟩ := bind_eq_ok.1 ran
      cases o with
      | failure message e found =>
          cases ran
          exact ⟨[], s, by simp, .done _ s, ⟨message, e, found⟩, by rw [andThen, first]; rfl⟩
      | success w e =>
          obtain ⟨⟨o, s''⟩, second, ran⟩ := bind_eq_ok.1 ran
          have round : (q.andThen fun _ => p) c s = .ok (o, s'') := by
            rw [andThen, first]
            exact second
          cases o with
          | failure message e' found =>
              cases ran
              exact ⟨[], s, by simp, .done _ s, ⟨message, e', found⟩, round⟩
          | success w' e' =>
              dsimp only at ran
              split at ran
              · obtain ⟨found, -, failed, -⟩ := failHere_eq_ok ran
                cases failed
              · obtain ⟨vs, u, rfl, rounds, fails⟩ := ih ran
                exact ⟨w' :: vs, u, by simp, .next round rounds, fails⟩

theorem many_stops {required : Bool} {fuel : Nat} (ran : many required fuel p c s = .ok (.success v d, t)) :
    ∃ vs u, v = .list vs ∧ p.Rounds c s vs d u ∧ p.Fails d u t :=
  manyFrom_stops ran

theorem sepBy_stops {required : Bool} {fuel : Nat} (ran : sepBy required fuel p q c s = .ok (.success v d, t)) :
    (required = false ∧ v = .list [] ∧ d = c ∧ p.Fails c s t) ∨
      ∃ w c' s' vs u, v = .list (w :: vs) ∧ p c s = .ok (.success w c', s') ∧
        (q.andThen fun _ => p).Rounds c' s' vs d u ∧ (q.andThen fun _ => p).Fails d u t := by
  obtain ⟨⟨o, s'⟩, first, ran⟩ := bind_eq_ok.1 ran
  cases o with
  | success w c' =>
      obtain ⟨vs, u, rfl, rounds, fails⟩ := separatedFrom_stops ran
      exact .inr ⟨w, c', s', vs, u, rfl, first, rounds, fails⟩
  | failure message e found =>
      dsimp only at ran
      cases required with
      | true => cases ran
      | false =>
          cases ran
          exact .inl ⟨rfl, rfl, rfl, ⟨message, e, found⟩, first⟩

end Runner

theorem Driver.parseOptional_stays {driver driver' : Driver} {description : String} {p : Runner} {s t : Session}
    (ran : driver.parseOptional description p s = .ok (.ok none, driver', t)) : driver' = driver := by
  simp only [parseOptional] at ran
  split at ran
  · cases ran
  · obtain ⟨⟨o, s'⟩, -, ran⟩ := bind_eq_ok.1 ran
    cases o <;> cases ran
    rfl

/-- Who gives up on a run of `p`, or on a separator `q` followed by `p`, goes on from where it started. -/
structure Runner.Backtracks (p q : Runner) : Prop where
  lookahead : ∀ c s v d t, adapt .lookahead p c s = .ok (.success v d, t) → d = c
  excluded : ∀ what c s v d t, adapt (.unless what) p c s = .ok (.success v d, t) → d = c
  optional : ∀ c s d t, adapt .optional p c s = .ok (.success .absent d, t) → d = c
  step : ∀ (driver : Driver) description s driver' t,
    driver.parseOptional description p s = .ok (.ok none, driver', t) → driver' = driver
  many : ∀ required fuel c s v d t, many required fuel p c s = .ok (.success v d, t) →
    ∃ vs u, v = .list vs ∧ p.Rounds c s vs d u ∧ p.Fails d u t
  sepBy : ∀ required fuel c s v d t, sepBy required fuel p q c s = .ok (.success v d, t) →
    (required = false ∧ v = .list [] ∧ d = c ∧ p.Fails c s t) ∨
      ∃ w c' s' vs u, v = .list (w :: vs) ∧ p c s = .ok (.success w c', s') ∧
        (q.andThen fun _ => p).Rounds c' s' vs d u ∧ (q.andThen fun _ => p).Fails d u t

/-- In a grammar without memory and interceptors, giving every failure inside a run another context changes nothing
but, perhaps, the context of the failure that the whole run ends with. Wherever a branch is given up, the run goes on
from the cursor before it. -/
theorem Grammar.failures_leave_no_context (g : Grammar) (e : Expr) (c : Cursor) (s : Session) (fuel : Nat)
    (memoryless : g.Memoryless e) (context : Expr → Cursor → Session → Failure → Value) :
    (g.runAltered (recasting context) fuel e c s).map (fun r => (r.1.faded, r.2)) =
        (g.run fuel e c s).map (fun r => (r.1.faded, r.2)) ∧
      ∀ p q : Runner, p.Backtracks q := by
  constructor
  · refine (recasting_fades context fuel memoryless c s trivial trivial).map_eq ?_
    rintro ⟨o, t⟩ ⟨o', _⟩ ⟨outcomes, rfl, -⟩
    exact congrArg (·, t) outcomes
  · intro p q
    exact {
      lookahead := fun _ _ _ _ _ => Runner.lookahead_stays
      excluded := fun _ _ _ _ _ _ => Runner.unless_stays
      optional := fun _ _ _ _ => Runner.optional_stays
      step := fun _ _ _ _ _ => Driver.parseOptional_stays
      many := fun _ _ _ _ _ _ _ => Runner.many_stops
      sepBy := fun _ _ _ _ _ _ _ => Runner.sepBy_stops }

theorem Grammar.failures_leave_no_context_after_separator :
    let separator : Expr := .pair (.prim (.char ',')) (.prim (.updateContext fun _ => .unit))
    let g : Grammar := { rules := [⟨.plain, "digits", .sepBy true (.prim .digit) separator⟩] }
    let e : Expr := .pair (.rule 0) (.prim .readContext)
    let c : Cursor := ⟨['1', ','], 0, some (.char 'c')⟩
    (g.runAltered (recasting fun _ _ _ _ => .char 'd') 5 e c (.fresh {} {})).map (fun r => (r.1.faded, r.2)) =
      .ok (.success (.pair (.list [.char '1']) (.char 'c')) ⟨['1', ','], 1, some (.char 'c')⟩, .fresh {} {}) := by
  intro separator g e c
  have memoryless : g.Memoryless e := by
    refine ⟨.of_isSimple rfl rfl, fun r rule _ found => ?_⟩
    cases r <;> cases found
    rfl
  exact (failures_leave_no_context g e c (.fresh {} {}) 5 memoryless fun _ _ _ _ => .char 'd').1.trans rfl

end ParseEngine
