import ParseEngine.Proofs.Rule

namespace ParseEngine

/-- The second computation gives every result of the first. -/
def Below {α : Type} (x y : Except Halt α) : Prop :=
  ∀ a, x = .ok a → y = .ok a

namespace Below
variable {α β : Type} {x y : Except Halt α}

theorem refl (x : Except Halt α) : Below x x :=
  fun _ given => given

theorem exhausted (y : Except Halt α) : Below (.error .outOfFuel) y :=
  fun _ given => by cases given

theorem bind {f g : α → Except Halt β} (first : Below x y) (second : ∀ a, Below (f a) (g a)) :
    Below (x >>= f) (y >>= g) := by
  intro b given
  obtain ⟨a, given, given'⟩ := bind_eq_ok.1 given
  exact bind_eq_ok.2 ⟨a, first a given, second a b given'⟩

end Below

def Runner.Below (p q : Runner) : Prop :=
  ∀ c s, ParseEngine.Below (p c s) (q c s)

def Engine.Below (run run' : Engine) : Prop :=
  ∀ e, (run e).Below (run' e)

namespace Runner
variable {p p' q q' : Runner} {fuel fuel' : Nat}

theorem andThen_below {next next' : Value → Runner} (first : p.Below p') (rest : ∀ v, (next v).Below (next' v)) :
    (p.andThen next).Below (p'.andThen next') := by
  intro c s
  refine (first c s).bind fun r => ?_
  obtain ⟨o, s⟩ := r
  cases o with
  | success v d => exact rest v d s
  | failure message d found => exact .refl _

theorem mapValue_below (f : Value → Value) (part : p.Below p') : (p.mapValue f).Below (p'.mapValue f) :=
  fun c s => (part c s).bind fun _ => .refl _

theorem pair_below (first : p.Below p') (second : q.Below q') : (p.pair q).Below (p'.pair q') :=
  andThen_below first fun v => mapValue_below (.pair v) second

theorem orElse_below (first : p.Below p') (second : q.Below q') : (p.orElse q).Below (p'.orElse q') := by
  intro c s
  refine (first c s).bind fun r => ?_
  obtain ⟨o, s⟩ := r
  cases o with
  | success v d => exact .refl _
  | failure message d found =>
      dsimp only
      split
      · exact second c s
      · exact .refl _

theorem sequenceFrom_below {run run' : Engine} (below : Engine.Below run run') (es : List Expr)
    (collected : List Value) :
    (sequenceFrom (es.map run) collected).Below (sequenceFrom (es.map run') collected) := by
  induction es generalizing collected with
  | nil => exact fun c s => .refl _
  | cons e es ih => exact andThen_below (below e) fun v => ih (v :: collected)

theorem countFrom_below (part : p.Below p') (n : Nat) (collected : List Value) :
    (countFrom p n collected).Below (countFrom p' n collected) := by
  induction n generalizing collected with
  | zero => exact fun c s => .refl _
  | succ n ih => exact andThen_below part fun v => ih (v :: collected)

theorem choiceFrom_below {run run' : Engine} (below : Engine.Below run run') (es : List Expr)
    (failed : List Failure) : (choiceFrom (es.map run) failed).Below (choiceFrom (es.map run') failed) := by
  induction es generalizing failed with
  | nil => exact fun c s => .refl _
  | cons e es ih =>
      intro c s
      refine (below e c s).bind fun r => ?_
      obtain ⟨o, s⟩ := r
      cases o with
      | success v d => exact .refl _
      | failure message d found => exact ih (⟨message, d, found⟩ :: failed) c s

theorem manyFrom_below (required : Bool) (part : p.Below p') (le : fuel ≤ fuel') (collected : List Value) :
    (manyFrom required p fuel collected).Below (manyFrom required p' fuel' collected) := by
  induction fuel generalizing fuel' collected with
  | zero => exact fun c s => .exhausted _
  | succ fuel ih =>
      obtain ⟨more, rfl⟩ := Nat.exists_eq_add_of_le' le
      intro c s
      refine (part c s).bind fun r => ?_
      obtain ⟨o, s⟩ := r
      cases o with
      | success v d =>
          dsimp only
          split
          · exact .refl _
          · exact ih (Nat.le_add_left fuel more) (v :: collected) d s
      | failure message d found => exact .refl _

theorem separatedFrom_below (item : p.Below p') (separator : q.Below q') (le : fuel ≤ fuel')
    (collected : List Value) :
    (separatedFrom p q fuel collected).Below (separatedFrom p' q' fuel' collected) := by
  induction fuel generalizing fuel' collected with
  | zero => exact fun c s => .exhausted _
  | succ fuel ih =>
      obtain ⟨more, rfl⟩ := Nat.exists_eq_add_of_le' le
      intro c s
      refine (separator c s).bind fun r => ?_
      obtain ⟨o, s⟩ := r
      cases o with
      | failure message d found => exact .refl _
      | success v d =>
          refine (item d s).bind fun r => ?_
          obtain ⟨o, s⟩ := r
          cases o with
          | failure message e found => exact .refl _
          | success w e =>
              dsimp only
              split
              · exact .refl _
              · exact ih (Nat.le_add_left fuel more) (w :: collected) e s

theorem sepBy_below (required : Bool) (item : p.Below p') (separator : q.Below q') (le : fuel ≤ fuel') :
    (sepBy required fuel p q).Below (sepBy required fuel' p' q') := by
  intro c s
  refine (item c s).bind fun r => ?_
  obtain ⟨o, s⟩ := r
  cases o with
  | success v d => exact separatedFrom_below item separator le [v] d s
  | failure message d found => exact .refl _

theorem foldFrom_below (f : Value → Value → Value → Value) (term : p.Below p') (op : q.Below q')
    (le : fuel ≤ fuel') (acc : Value) : (foldFrom p q f fuel acc).Below (foldFrom p' q' f fuel' acc) := by
  induction fuel generalizing fuel' acc with
  | zero => exact fun c s => .exhausted _
  | succ fuel ih =>
      obtain ⟨more, rfl⟩ := Nat.exists_eq_add_of_le' le
      intro c s
      refine (op c s).bind fun r => ?_
      obtain ⟨o, s⟩ := r
      cases o with
      | failure message d found => exact .refl _
      | success v d => exact andThen_below term (fun b => ih (Nat.le_add_left fuel more) (f acc v b)) d s

theorem adapt_below (adapter : Adapter) (part : p.Below p') : (adapt adapter p).Below (adapt adapter p') :=
  fun c s => (part c s).bind fun _ => .refl _

theorem detached_below (part : p.Below p') : p.detached.Below p'.detached :=
  fun c s => (part { c with context := none } s).bind fun _ => .refl _

theorem memo_below (id : ParserId) (part : p.Below p') : (memo id p).Below (memo id p') := by
  intro c s
  cases known : (s.memo.lookup ⟨id, c.index⟩).bind (·.outcome? c.context.isSome) with
  | some o =>
      simp only [memo, Session.consult, known]
      exact .refl _
  | none =>
      simp only [memo, Session.consult, known, Session.tracked, bind_assoc]
      exact (part c _).bind fun _ => .refl _

theorem growFrom_below (id : ParserId) (cap : Nat) (part : p.Below p') (left grown : Nat) :
    (growFrom id cap p left grown).Below (growFrom id cap p' left grown) := by
  induction left generalizing grown with
  | zero => exact fun c s => .exhausted _
  | succ left ih =>
      intro c s
      rw [growFrom_succ, growFrom_succ]
      refine (part c _).bind fun r => ?_
      cases turn id cap grown c r.1 r.2 with
      | ends o t => exact .refl _
      | again grown t => exact ih grown c t

theorem leftRecursive_below (id : ParserId) (title : String) (part : p.Below p') :
    (leftRecursive id title p).Below (leftRecursive id title p') := by
  intro c s
  simp only [leftRecursive]
  split
  · exact .refl _
  · split
    · exact .refl _
    · refine Below.bind ?_ fun _ => .refl _
      simp only [Session.tracked, growSeed, bind_assoc]
      refine Below.bind (.refl _) fun seed => ?_
      refine Below.bind (.refl _) fun rest => ?_
      exact (growFrom_below id _ part _ _ c _).bind fun _ => .refl _

theorem intercept_below (identify : String → ParserId) (interceptor : Interceptor) (part : p.Below p') :
    (intercept identify interceptor p).Below (intercept identify interceptor p') := by
  intro c s
  obtain ⟨how, intercepts, same⟩ := intercept_eq identify interceptor c s
  rw [same, same]
  cases intercepts with
  | noted f after => exact (part c _).bind fun _ => .refl _
  | refused message f after => exact .refl _
  | tracked after => exact (part c _).bind fun _ => .refl _
  | repeated after => exact (part c s).bind fun r => (part c r.2).bind fun _ => .refl _
  | apart => exact (part c _).bind fun _ => .refl _
  | rebuilt => exact (part c s).bind fun _ => .refl _
  | mapped f => exact mapValue_below _ part c s
  | read inFlight f => exact part c _
  | planted f => exact part c _

end Runner

namespace Script

theorem parse_below (d : Driver) (description : String) {p q : Runner} (part : p.Below q) (s : Session) :
    Below (d.parse description p s) (d.parse description q s) := by
  unfold Driver.parse
  split
  · exact .refl _
  · exact (part d.cursor s).bind fun _ => .refl _

theorem parseOptional_below (d : Driver) (description : String) {p q : Runner} (part : p.Below q) (s : Session) :
    Below (d.parseOptional description p s) (d.parseOptional description q s) := by
  unfold Driver.parseOptional
  split
  · exact .refl _
  · exact (part d.cursor s).bind fun _ => .refl _

theorem proceed_below {rest rest' : Scene → Except Halt (Flow × Scene)}
    (later : ∀ scene, Below (rest scene) (rest' scene)) (r : Flow × Scene) :
    Below (proceed rest r) (proceed rest' r) := by
  obtain ⟨flow, scene⟩ := r
  cases flow with
  | next => exact later scene
  | given v => exact .refl _
  | aborted abort => exact .refl _

section Parts
variable {run run' : Engine} (below : Engine.Below run run') (describe : Expr → String) (parts : List Expr)
include below

theorem partAt_below (n : Nat) :
    (partAt (Routine.partsOf describe parts run) n).description =
        (partAt (Routine.partsOf describe parts run') n).description ∧
      (partAt (Routine.partsOf describe parts run) n).runner.Below
        (partAt (Routine.partsOf describe parts run') n).runner := by
  simp only [partAt, Routine.partsOf, List.getElem?_map]
  cases parts[n]? with
  | none => exact ⟨rfl, fun c s => .refl _⟩
  | some p => exact ⟨rfl, below p⟩

theorem put_below (request : Request) (scene : Scene) :
    Below (request.put (Routine.partsOf describe parts run) scene)
      (request.put (Routine.partsOf describe parts run') scene) := by
  cases request with
  | parse n description =>
      obtain ⟨same, part⟩ := partAt_below below describe parts n
      simp only [Request.put, same]
      exact (parse_below _ _ part _).bind fun _ => .refl _
  | optional n =>
      obtain ⟨same, part⟩ := partAt_below below describe parts n
      simp only [Request.put, same]
      exact (parseOptional_below _ _ part _).bind fun _ => .refl _
  | fail message => exact .refl _
  | pattern source => exact .refl _
  | foreignAbort => exact .refl _

theorem play_below {α : Type} (plan : Plan α) (scene : Scene) :
    Below (plan.play (Routine.partsOf describe parts run) scene)
      (plan.play (Routine.partsOf describe parts run') scene) := by
  induction plan generalizing scene with
  | ends a bindings => exact .refl _
  | ask request next ih => exact (put_below below describe parts request scene).bind fun r => ih r.1 _ r.2
  | note event next ih => exact ih (scene.observe event)

omit below in
theorem runLoop_below {head head' : Scene → Except Halt (Option Flow × Scene)}
    {body body' : Scene → Except Halt (Flow × Scene)} (first : ∀ scene, Below (head scene) (head' scene))
    (round : ∀ scene, Below (body scene) (body' scene)) {fuel fuel' : Nat} (le : fuel ≤ fuel') (scene : Scene) :
    Below (runLoop head body fuel scene) (runLoop head' body' fuel' scene) := by
  induction fuel generalizing fuel' scene with
  | zero => exact .exhausted _
  | succ fuel ih =>
      obtain ⟨more, rfl⟩ := Nat.exists_eq_add_of_le' le
      rw [← Nat.add_assoc, runLoop_succ, runLoop_succ]
      refine (first scene).bind fun r => ?_
      obtain ⟨ended, scene⟩ := r
      cases ended with
      | some flow => exact .refl _
      | none => exact (round scene).bind (proceed_below (ih (Nat.le_add_left fuel more)))

theorem runBlock_below {fuel fuel' : Nat} (le : fuel ≤ fuel') (script : List Stmt) (scene : Scene) :
    Below (runBlock (Routine.partsOf describe parts run) fuel script scene)
      (runBlock (Routine.partsOf describe parts run') fuel' script scene) := by
  induction fuel generalizing fuel' script scene with
  | zero => exact .exhausted _
  | succ fuel ih =>
      obtain ⟨more, rfl⟩ := Nat.exists_eq_add_of_le' le
      have le := Nat.le_add_left fuel more
      cases script with
      | nil => exact .refl _
      | cons stmt rest =>
          rw [← Nat.add_assoc, runBlock_cons, runBlock_cons]
          refine Below.bind ?_ (proceed_below fun scene => ih le rest scene)
          cases stmt with
          | follow choose => exact play_below below describe parts (choose scene.outlook) scene
          | rounds head body =>
              exact runLoop_below (fun scene => play_below below describe parts (head scene.outlook) scene)
                (ih le body) le scene
          | branch of test yes no =>
              simp only [runStmt]
              exact Below.bind (.refl _) fun v => ih le (if test v then yes else no) scene
          | _ =>
              simp only [runStmt]
              exact .refl _

theorem run_below {fuel fuel' : Nat} (le : fuel ≤ fuel') (script : List Stmt) :
    (Script.run fuel (Routine.partsOf describe parts run) script).Below
      (Script.run fuel' (Routine.partsOf describe parts run') script) :=
  fun _ _ => (runBlock_below below describe parts le script _).bind fun _ => .refl _

end Parts

end Script

theorem Expr.routine_below (e : Expr) (describe : Expr → String) {run run' : Engine} (below : Engine.Below run run')
    {fuel fuel' : Nat} (le : fuel ≤ fuel') (c : Cursor) (s : Session) :
    Below (e.routine describe fuel c run s) (e.routine describe fuel' c run' s) := by
  cases e with
  | prim p => exact .refl _
  | adapt adapter p => exact Runner.adapt_below adapter (below p) c s
  | chain p next => exact Runner.andThen_below (below p) (fun v => below (next v)) c s
  | pair a b => exact Runner.pair_below (below a) (below b) c s
  | orElse a b => exact Runner.orElse_below (below a) (below b) c s
  | many required p => exact Runner.manyFrom_below required (below p) le [] c s
  | count n p => exact Runner.countFrom_below (below p) n [] c s
  | sepBy required item separator => exact Runner.sepBy_below required (below item) (below separator) le c s
  | foldLeft term op f =>
      exact Runner.andThen_below (below term) (fun a => Runner.foldFrom_below f (below term) (below op) le a) c s
  | sequence es => exact Runner.sequenceFrom_below below es [] c s
  | choice es => exact Runner.choiceFrom_below below es [] c s
  | rule r => exact .exhausted _
  | detached p => exact Runner.detached_below (below p) c s
  | steps es script => exact Script.run_below below describe es le script c s
  | intercept interceptor p => exact .exhausted _

namespace Grammar

theorem run_below (g : Grammar) {fuel fuel' : Nat} (le : fuel ≤ fuel') :
    Engine.Below (g.run fuel) (g.run fuel') := by
  induction fuel generalizing fuel' with
  | zero => exact fun e c s => .exhausted _
  | succ fuel ih =>
      obtain ⟨more, rfl⟩ := Nat.exists_eq_add_of_le' le
      have below := ih (Nat.le_add_left fuel more)
      intro e c s
      rw [← Nat.add_assoc]
      by_cases composite : e.isComposite = true
      · rw [g.run_composite composite, g.run_composite composite]
        exact e.routine_below _ below (Nat.le_add_left fuel more) c s
      · cases e with
        | rule r =>
            cases found : g.rules[r]? with
            | none =>
                rw [run_missing fuel found, run_missing (more + fuel) found]
                exact .refl _
            | some rule =>
                cases mode : rule.mode with
                | plain =>
                    rw [run_plain found fuel mode, run_plain found (more + fuel) mode]
                    exact below rule.body c s
                | memo =>
                    rw [run_memo found fuel mode, run_memo found (more + fuel) mode]
                    exact Runner.memo_below _ (below rule.body) c s
                | leftRecursive =>
                    rw [run_leftRecursive found fuel mode, run_leftRecursive found (more + fuel) mode]
                    exact Runner.leftRecursive_below _ _ (below rule.body) c s
        | intercept interceptor p => exact Runner.intercept_below _ interceptor (below p) c s
        | _ => exact absurd rfl composite

theorem run_mono {g : Grammar} {fuel fuel' : Nat} (le : fuel ≤ fuel') {e : Expr} {c : Cursor} {s : Session}
    {r : Outcome × Session} (ran : g.run fuel e c s = .ok r) : g.run fuel' e c s = .ok r :=
  g.run_below le e c s r ran

theorem run_unique {g : Grammar} {fuel fuel' : Nat} {e : Expr} {c : Cursor} {s : Session}
    {r r' : Outcome × Session} (ran : g.run fuel e c s = .ok r) (ran' : g.run fuel' e c s = .ok r') : r = r' := by
  have more := run_mono (Nat.le_max_left fuel fuel') ran
  rw [run_mono (Nat.le_max_right fuel fuel') ran'] at more
  exact (Except.ok.inj more).symm

theorem run_prim {g : Grammar} {p : Prim} {c : Cursor} {o : Outcome} (ran : p.run c = .ok o) (fuel : Nat)
    (s : Session) : g.run (fuel + 1) (.prim p) c s = .ok (o, s) := by
  simp only [Grammar.run, ran]
  rfl

def Evaluates (g : Grammar) (e : Expr) (c : Cursor) (s : Session) (o : Outcome) (t : Session) : Prop :=
  ∃ fuel, g.run fuel e c s = .ok (o, t)

namespace Evaluates
variable {g : Grammar} {a b : Expr} {c d : Cursor} {s t u : Session} {o o' : Outcome} {v : Value}
  {message found : String}

theorem prim_iff {p : Prim} : g.Evaluates (.prim p) c s o t ↔ p.run c = .ok o ∧ t = s := by
  constructor
  · rintro ⟨fuel, ran⟩
    cases fuel with
    | zero => cases ran
    | succ fuel =>
        obtain ⟨o', ran', same⟩ := bind_eq_ok.1 ran
        cases same
        exact ⟨ran', rfl⟩
  · rintro ⟨ran, rfl⟩
    exact ⟨1, run_prim ran 0 t⟩

theorem adapt {adapter : Adapter} (part : g.Evaluates a c s o t) (applied : adapter.apply c o = .ok o') :
    g.Evaluates (.adapt adapter a) c s o' t := by
  obtain ⟨fuel, ran⟩ := part
  refine ⟨fuel + 1, ?_⟩
  change Runner.adapt adapter (g.run fuel a) c s = _
  simp only [Runner.adapt, ran, ok_bind, applied]
  rfl

theorem pair (first : g.Evaluates a c s (.success v d) u) (second : g.Evaluates b d u o t) :
    g.Evaluates (.pair a b) c s (o.map (.pair v)) t := by
  obtain ⟨fuel, ran⟩ := first
  obtain ⟨fuel', ran'⟩ := second
  refine ⟨max fuel fuel' + 1, ?_⟩
  change Runner.pair (g.run (max fuel fuel') a) (g.run (max fuel fuel') b) c s = _
  simp only [Runner.pair, Runner.andThen, run_mono (Nat.le_max_left fuel fuel') ran, ok_bind, Runner.mapValue,
    run_mono (Nat.le_max_right fuel fuel') ran']
  rfl

theorem pair_failure (first : g.Evaluates a c s (.failure message d found) t) :
    g.Evaluates (.pair a b) c s (.failure message d found) t := by
  obtain ⟨fuel, ran⟩ := first
  refine ⟨fuel + 1, ?_⟩
  change Runner.pair (g.run fuel a) (g.run fuel b) c s = _
  rw [Runner.pair, Runner.andThen, ran]
  rfl

theorem orElse_success (first : g.Evaluates a c s (.success v d) t) :
    g.Evaluates (.orElse a b) c s (.success v d) t := by
  obtain ⟨fuel, ran⟩ := first
  refine ⟨fuel + 1, ?_⟩
  change Runner.orElse (g.run fuel a) (g.run fuel b) c s = _
  rw [Runner.orElse, ran]
  rfl

theorem orElse_failure (first : g.Evaluates a c s (.failure message d found) t) (further : d.index ≠ c.index) :
    g.Evaluates (.orElse a b) c s (.failure message d found) t := by
  obtain ⟨fuel, ran⟩ := first
  refine ⟨fuel + 1, ?_⟩
  change Runner.orElse (g.run fuel a) (g.run fuel b) c s = _
  simp only [Runner.orElse, ran, ok_bind, if_neg further]
  rfl

theorem orElse_second (first : g.Evaluates a c s (.failure message d found) u) (here : d.index = c.index)
    (second : g.Evaluates b c u o t) : g.Evaluates (.orElse a b) c s o t := by
  obtain ⟨fuel, ran⟩ := first
  obtain ⟨fuel', ran'⟩ := second
  refine ⟨max fuel fuel' + 1, ?_⟩
  change Runner.orElse (g.run (max fuel fuel') a) (g.run (max fuel fuel') b) c s = _
  simp only [Runner.orElse, run_mono (Nat.le_max_left fuel fuel') ran, ok_bind, if_pos here,
    run_mono (Nat.le_max_right fuel fuel') ran']

end Evaluates

end Grammar
end ParseEngine
