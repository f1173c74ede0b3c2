import Mathlib.Logic.Relation
import Mathlib.Tactic.Choose
import ParseEngine.Proofs.Progress

namespace ParseEngine

inductive Query where
  | parse (description : String) (p : Runner)
  | parseOptional (description : String) (p : Runner)
  | fail (message : String)

/-- The answer to a query; that to `parse` is never `none`. -/
def Query.put (d : Driver) (s : Session) : Query → Except Halt (Except Abort (Option Value) × Driver × Session)
  | .parse description p => d.parse description p s >>= fun r => .ok (r.1.map some, r.2)
  | .parseOptional description p => d.parseOptional description p s
  | .fail message => d.fail message >>= fun r => .ok (.error r.1, r.2, s)

/-- A script that asks finitely often and chooses each query by what it has seen so far. -/
inductive Dialogue (α : Type) where
  | ends (a : α)
  | ask (query : Query) (next : Except Abort (Option Value) → Driver → Dialogue α)
  | note (f : Journal → Journal) (next : Dialogue α)
  | halts (halt : Halt)

namespace Dialogue
variable {α β : Type}

def play : Dialogue α → Driver → Session → Except Halt (α × Driver × Session)
  | .ends a, d, s => .ok (a, d, s)
  | .ask query next, d, s => query.put d s >>= fun r => (next r.1 r.2.1).play r.2.1 r.2.2
  | .note f next, d, s => next.play d (s.annotate f)
  | .halts halt, _, _ => .error halt

def run (script : Driver → Dialogue (Except Abort Value)) : Runner := fun c s =>
  (script (.start c)).play (.start c) s >>= fun r => r.2.1.finish r.1 >>= fun o => .ok (o, r.2.2)

structure Point (α : Type) where
  script : Dialogue α
  driver : Driver
  session : Session

inductive Step : Point α → Point α → Prop
  | ask {query : Query} {next : Except Abort (Option Value) → Driver → Dialogue α} {d d' : Driver} {s t : Session}
      {answer : Except Abort (Option Value)} (answered : query.put d s = .ok (answer, d', t)) :
      Step ⟨.ask query next, d, s⟩ ⟨next answer d', d', t⟩
  | note (f : Journal → Journal) (next : Dialogue α) (d : Driver) (s : Session) :
      Step ⟨.note f next, d, s⟩ ⟨next, d, s.annotate f⟩

abbrev Reaches : Point α → Point α → Prop :=
  Relation.ReflTransGen Step

end Dialogue

structure Runner.Forward (I : Cursor → Session → Prop) (p : Runner) : Prop where
  success : ∀ c s v d t, I c s → p c s = .ok (.success v d, t) → c.index ≤ d.index ∧ I d t
  failure : ∀ c s message d found t, I c s → p c s = .ok (.failure message d found, t) → I c t

def Query.Forward (I : Cursor → Session → Prop) : Query → Prop
  | .parse _ p | .parseOptional _ p => p.Forward I
  | .fail _ => True

def Dialogue.Forward (I : Cursor → Session → Prop) {α : Type} : Dialogue α → Prop
  | .ends _ | .halts _ => True
  | .ask query next => query.Forward I ∧ ∀ answer d, (next answer d).Forward I
  | .note _ next => next.Forward I

def Query.Records (d : Driver) (s : Session) (failure : Failure) : Query → Prop
  | .parse _ p => ∃ t, p d.cursor s = .ok (failure.toOutcome, t)
  | .parseOptional .. => False
  | .fail message => failure.message = message ∧ failure.cursor = d.cursor ∧ d.cursor.preview = .ok failure.found

/-- What a driver that has not failed does with a query: its answer, where it is then, what it keeps and records, and
the session it leaves. -/
inductive Query.Answers (d : Driver) (s : Session) : Query → Except Abort (Option Value) → Driver → Session → Prop
  | parsed {description : String} {p : Runner} {v : Value} {c : Cursor} {t : Session}
      (ran : p d.cursor s = .ok (.success v c, t)) :
      Answers d s (.parse description p) (.ok (some v))
        ⟨c, d.history ++ [⟨d.history.length + 1, description, v.inspect, c.index⟩], none⟩ t
  | failed {description : String} {p : Runner} {message found : String} {c : Cursor} {t : Session}
      (ran : p d.cursor s = .ok (.failure message c found, t)) :
      Answers d s (.parse description p) (.error ⟨none⟩) ⟨d.cursor, d.history, some ⟨message, c, found⟩⟩
        (t.log (.stepFailed (d.history.length + 1) description c.index message))
  | present {description : String} {p : Runner} {v : Value} {c : Cursor} {t : Session}
      (ran : p d.cursor s = .ok (.success v c, t)) :
      Answers d s (.parseOptional description p) (.ok (some v))
        ⟨c, d.history ++ [⟨d.history.length + 1, description, v.inspect, c.index⟩], none⟩ t
  | absent {description : String} {p : Runner} {message found : String} {c : Cursor} {t : Session}
      (ran : p d.cursor s = .ok (.failure message c found, t)) :
      Answers d s (.parseOptional description p) (.ok none) ⟨d.cursor, d.history, none⟩ t
  | ended {message found : String} (shown : d.cursor.preview = .ok found) :
      Answers d s (.fail message) (.error ⟨none⟩) ⟨d.cursor, d.history, some ⟨message, d.cursor, found⟩⟩ s

namespace Query
variable {I : Cursor → Session → Prop} {query : Query} {d d' : Driver} {s t : Session}
  {answer : Except Abort (Option Value)}

theorem put_refused (failed : d.failure.isSome) (query : Query) (s : Session) :
    query.put d s = .ok (.error {}, d, s) := by
  cases query with
  | parse description p => rw [put, Driver.parse, if_pos failed]; rfl
  | parseOptional description p => rw [put, Driver.parseOptional, if_pos failed]
  | fail message => rw [put, Driver.fail, if_pos failed]; rfl

theorem Answers.of_put (running : d.failure = none) (answered : query.put d s = .ok (answer, d', t)) :
    query.Answers d s answer d' t := by
  obtain ⟨place, history, failure⟩ := d
  cases running
  cases query with
  | parse description p =>
      obtain ⟨r, parsed, same⟩ := bind_eq_ok.1 answered
      obtain ⟨⟨o, u⟩, ran, rest⟩ := bind_eq_ok.1 parsed
      cases o with
      | success v c =>
          cases rest
          cases same
          exact .parsed ran
      | failure message c found =>
          cases rest
          cases same
          exact .failed ran
  | parseOptional description p =>
      obtain ⟨⟨o, u⟩, ran, rest⟩ := bind_eq_ok.1 answered
      cases o with
      | success v c =>
          cases rest
          exact .present ran
      | failure message c found =>
          cases rest
          exact .absent ran
  | fail message =>
      obtain ⟨r, failed, same⟩ := bind_eq_ok.1 answered
      obtain ⟨found, shown, rest⟩ := bind_eq_ok.1 failed
      cases rest
      cases same
      exact .ended shown

theorem put_cases (noted : ∀ c s f, I c s → I c (s.annotate f)) (running : d.failure = none)
    (forward : query.Forward I) (here : I d.cursor s) (answered : query.put d s = .ok (answer, d', t)) :
    (∃ description v c, d' = d.advance description v c ∧ d.cursor.index ≤ c.index ∧ I c t) ∨
    (d' = d ∧ I d.cursor t) ∨
    (I d.cursor t ∧ ∃ failure, query.Records d s failure ∧ d' = { d with failure := some failure }) := by
  obtain ⟨place, history, failure⟩ := d
  cases running
  cases Answers.of_put rfl answered with
  | parsed ran => exact .inl ⟨_, _, _, rfl, forward.success _ _ _ _ _ here ran⟩
  | @failed description p message found c t ran =>
      have kept := forward.failure _ _ _ _ _ _ here ran
      exact .inr (.inr ⟨noted _ t (·.logged _) kept, ⟨message, c, found⟩, ⟨t, ran⟩, rfl⟩)
  | present ran => exact .inl ⟨_, _, _, rfl, forward.success _ _ _ _ _ here ran⟩
  | absent ran => exact .inr (.inl ⟨rfl, forward.failure _ _ _ _ _ _ here ran⟩)
  | ended shown => exact .inr (.inr ⟨here, _, ⟨rfl, rfl, shown⟩, rfl⟩)

end Query

structure Driver.Orderly (origin : Nat) (d : Driver) : Prop where
  numbered : d.history.map (·.step) = List.range' 1 d.history.length
  ordered : (d.history.map (·.position)).Pairwise (· ≤ ·)
  behind : ∀ frame ∈ d.history, frame.position ≤ d.cursor.index
  position : d.cursor.index = (d.history.map (·.position)).getLastD origin

namespace Driver.Orderly
variable {d : Driver} {origin : Nat}

theorem start (c : Cursor) : (Driver.start c).Orderly c.index where
  numbered := rfl
  ordered := .nil
  behind _ member := nomatch member
  position := rfl

theorem advance (orderly : d.Orderly origin) (description : String) (v : Value) {c : Cursor}
    (le : d.cursor.index ≤ c.index) : (d.advance description v c).Orderly origin where
  numbered := by simp [Driver.advance, orderly.numbered, List.range'_1_concat, Nat.add_comm]
  ordered := by
    simp only [Driver.advance, List.map_append, List.map_cons, List.map_nil, List.pairwise_append]
    refine ⟨orderly.ordered, List.pairwise_singleton _ _, fun position member position' last => ?_⟩
    obtain ⟨frame, earlier, rfl⟩ := List.mem_map.1 member
    rw [List.mem_singleton.1 last]
    exact Nat.le_trans (orderly.behind frame earlier) le
  behind frame member := by
    rcases List.mem_append.1 member with member | last
    · exact Nat.le_trans (orderly.behind frame member) le
    · rw [List.mem_singleton.1 last]
      exact Nat.le_refl _
  position := by simp [Driver.advance]

theorem fail (orderly : d.Orderly origin) (failure : Failure) :
    Driver.Orderly origin { d with failure := some failure } :=
  ⟨orderly.numbered, orderly.ordered, orderly.behind, orderly.position⟩

end Driver.Orderly

namespace Dialogue
variable {I : Cursor → Session → Prop} {α β : Type} {origin : Nat} {here later : Point α}

structure Kept (I : Cursor → Session → Prop) (origin : Nat) (here : Point α) : Prop where
  driver : here.driver.Orderly origin
  place : I here.driver.cursor here.session
  forward : here.script.Forward I

theorem Step.kept (noted : ∀ c s f, I c s → I c (s.annotate f)) (step : Step here later) (kept : Kept I origin here) :
    Kept I origin later := by
  obtain ⟨driver, place, forward⟩ := kept
  cases step with
  | note f next d s => exact ⟨driver, noted _ _ f place, forward⟩
  | @ask query next d d' s t answer answered =>
      obtain ⟨asked, forward⟩ := forward
      cases failed : d.failure with
      | some failure =>
          rw [Query.put_refused (by rw [failed]; rfl)] at answered
          cases answered
          exact ⟨driver, place, forward _ _⟩
      | none =>
          rcases Query.put_cases noted failed asked place answered with
            ⟨description, v, c, rfl, le, place⟩ | ⟨rfl, place⟩ | ⟨place, failure, -, rfl⟩
          · exact ⟨driver.advance description v le, place, forward _ _⟩
          · exact ⟨driver, place, forward _ _⟩
          · exact ⟨driver.fail failure, place, forward _ _⟩

theorem Reaches.kept (noted : ∀ c s f, I c s → I c (s.annotate f)) (reaches : Reaches here later)
    (kept : Kept I origin here) : Kept I origin later := by
  induction reaches with
  | refl => exact kept
  | tail _ step ih => exact step.kept noted ih

theorem Reaches.stopped (reaches : Reaches here later) (failed : here.driver.failure.isSome) :
    later.driver = here.driver ∧ ∃ f, later.session = here.session.annotate f := by
  induction reaches with
  | refl => exact ⟨rfl, id, rfl⟩
  | tail _ step ih =>
      obtain ⟨driver, f, session⟩ := ih
      cases step with
      | note f' next d s =>
          refine ⟨driver, f' ∘ f, ?_⟩
          dsimp only at session ⊢
          rw [session]
          rfl
      | ask answered =>
          dsimp only at driver session
          rw [driver, Query.put_refused failed] at answered
          cases answered
          exact ⟨rfl, f, session⟩

def bind (next : α → Driver → Dialogue β) : Dialogue α → Driver → Dialogue β
  | .ends a, d => next a d
  | .ask query rest, _ => .ask query fun answer d => (rest answer d).bind next d
  | .note f rest, d => .note f (rest.bind next d)
  | .halts halt, _ => .halts halt

theorem play_bind (next : α → Driver → Dialogue β) (script : Dialogue α) (d : Driver) (s : Session) :
    (script.bind next d).play d s = script.play d s >>= fun r => (next r.1 r.2.1).play r.2.1 r.2.2 := by
  induction script generalizing d s with
  | ends a => rfl
  | ask query rest ih =>
      simp only [bind, play, bind_assoc]
      congr 1
      funext r
      exact ih r.1 r.2.1 r.2.1 r.2.2
  | note f rest ih => exact ih d (s.annotate f)
  | halts halt => rfl

theorem Forward.bind {next : α → Driver → Dialogue β} (forward : ∀ a d, (next a d).Forward I) {script : Dialogue α}
    (first : script.Forward I) (d : Driver) : (script.bind next d).Forward I := by
  induction script generalizing d with
  | ends a => exact forward a d
  | ask query rest ih => exact ⟨first.1, fun answer d => ih answer d (first.2 answer d) d⟩
  | note f rest ih => exact ih first d
  | halts halt => trivial

def Voices (I : Cursor → Session → Prop) (x : Driver → Session → Except Halt (α × Driver × Session)) : Prop :=
  ∃ script : Driver → Dialogue α, (∀ d, (script d).Forward I) ∧ ∀ d s, x d s = (script d).play d s

namespace Voices
variable {x : Driver → Session → Except Halt (α × Driver × Session)}
  {y : α → Driver → Session → Except Halt (β × Driver × Session)}

theorem congr {x' : Driver → Session → Except Halt (α × Driver × Session)} (voices : Voices I x)
    (same : ∀ d s, x' d s = x d s) : Voices I x' := by
  obtain ⟨script, forward, plays⟩ := voices
  exact ⟨script, forward, fun d s => (same d s).trans (plays d s)⟩

theorem done (a : α) : Voices I fun d s => .ok (a, d, s) :=
  ⟨fun _ => .ends a, fun _ => trivial, fun _ _ => rfl⟩

theorem halts (halt : Halt) : Voices I fun _ _ => (.error halt : Except Halt (α × Driver × Session)) :=
  ⟨fun _ => .halts halt, fun _ => trivial, fun _ _ => rfl⟩

theorem ask {query : Query} (forward : query.Forward I) : Voices I fun d s => query.put d s := by
  refine ⟨fun _ => .ask query fun answer _ => .ends answer, fun _ => ⟨forward, fun _ _ => trivial⟩, fun d s => ?_⟩
  simp only [play]
  exact (bind_pure _).symm

theorem bind (first : Voices I x) (rest : ∀ a, Voices I (y a)) :
    Voices I fun d s => x d s >>= fun r => y r.1 r.2.1 r.2.2 := by
  obtain ⟨script, forward, plays⟩ := first
  choose next forward' plays' using rest
  refine ⟨fun d => (script d).bind next d, fun d => (forward d).bind forward' d, fun d s => ?_⟩
  simp only [play_bind, plays, plays']

theorem look {look : Driver → Except Halt α} (rest : ∀ a, Voices I (y a)) :
    Voices I fun d s => look d >>= fun a => y a d s := by
  choose next forward plays using rest
  refine ⟨fun d => match look d with | .ok a => next a d | .error halt => .halts halt, fun d => ?_, fun d s => ?_⟩
  · dsimp only
    cases look d with
    | ok a => exact forward a d
    | error halt => trivial
  · dsimp only
    cases look d with
    | ok a => exact plays a d s
    | error halt => rfl

theorem note (f : Driver → Journal → Journal) (rest : Voices I x) : Voices I fun d s => x d (s.annotate (f d)) := by
  obtain ⟨script, forward, plays⟩ := rest
  exact ⟨fun d => .note (f d) (script d), forward, fun d s => plays d (s.annotate (f d))⟩

end Voices

mutual
theorem eval_session (d : Driver) (s s' : Session) (bindings : List (String × Value)) :
    (t : Term) → Scene.eval ⟨d, s, bindings⟩ t = Scene.eval ⟨d, s', bindings⟩ t
  | .var name => by rw [Scene.eval, Scene.eval]; rfl
  | .list items => by rw [Scene.eval, Scene.eval, evalAll_session d s s' bindings items]
  | .pair a b => by rw [Scene.eval, Scene.eval, eval_session d s s' bindings a, eval_session d s s' bindings b]
  | .apply f argument => by rw [Scene.eval, Scene.eval, eval_session d s s' bindings argument]
  | .constant v => by rw [Scene.eval, Scene.eval]
  | .position => by rw [Scene.eval, Scene.eval]
  | .history => by rw [Scene.eval, Scene.eval]
  | .remaining => by rw [Scene.eval, Scene.eval]

theorem evalAll_session (d : Driver) (s s' : Session) (bindings : List (String × Value)) :
    (ts : List Term) → Scene.evalAll ⟨d, s, bindings⟩ ts = Scene.evalAll ⟨d, s', bindings⟩ ts
  | [] => by rw [Scene.evalAll, Scene.evalAll]
  | t :: rest => by
      rw [Scene.evalAll, Scene.evalAll, eval_session d s s' bindings t, evalAll_session d s s' bindings rest]
end

def parted (x : Except Halt (α × Scene)) : Except Halt ((α × List (String × Value)) × Driver × Session) :=
  x.map fun r => ((r.1, r.2.bindings), r.2.driver, r.2.session)

theorem parted_bind (x : Except Halt (α × Scene)) (f : α → Scene → Except Halt (β × Scene)) :
    parted (x >>= fun r => f r.1 r.2) = parted x >>= fun r => parted (f r.1.1 ⟨r.2.1, r.2.2, r.1.2⟩) := by
  cases x <;> rfl

abbrev Enacts (I : Cursor → Session → Prop) (x : Scene → Except Halt (α × Scene)) : Prop :=
  ∀ bindings, Voices I fun d s => parted (x ⟨d, s, bindings⟩)

namespace Enacts

theorem bind {x : Scene → Except Halt (α × Scene)} {f : α → Scene → Except Halt (β × Scene)} (first : Enacts I x)
    (rest : ∀ a, Enacts I (f a)) : Enacts I fun scene => x scene >>= fun r => f r.1 r.2 := by
  intro bindings
  simp only [parted_bind]
  exact (first bindings).bind fun r => rest r.1 r.2

theorem done (a : α) (f : List (String × Value) → List (String × Value)) :
    Enacts I fun scene => .ok (a, { scene with bindings := f scene.bindings }) :=
  fun bindings => .done (a, f bindings)

theorem eval (t : Term) {f : Value → Scene → Except Halt (α × Scene)} (rest : ∀ v, Enacts I (f v)) :
    Enacts I fun scene => scene.eval t >>= fun v => f v scene := by
  intro bindings
  have same (d : Driver) (s : Session) : parted (Scene.eval ⟨d, s, bindings⟩ t >>= fun v => f v ⟨d, s, bindings⟩) =
      Scene.eval ⟨d, {}, bindings⟩ t >>= fun v => parted (f v ⟨d, s, bindings⟩) := by
    rw [eval_session d s {} bindings t]
    cases Scene.eval ⟨d, {}, bindings⟩ t <;> rfl
  simp only [same]
  exact .look fun v => rest v bindings

theorem observe (event : Nat → Nat → TraceEvent) {x : Scene → Except Halt (α × Scene)} (rest : Enacts I x) :
    Enacts I fun scene => x (scene.observe event) :=
  fun bindings => (rest bindings).note fun d => (·.traced (event d.cursor.index d.history.length))

theorem seeing {f : Outlook → Scene → Except Halt (α × Scene)} (rest : ∀ outlook, Enacts I (f outlook)) :
    Enacts I fun scene => f scene.outlook scene := by
  intro bindings
  choose script forward plays using fun outlook => rest outlook bindings
  exact ⟨fun d => script ⟨bindings, d.cursor, d.history⟩ d, fun d => forward _ d, fun d s => plays _ d s⟩

theorem congr {x y : Scene → Except Halt (α × Scene)} (enacts : Enacts I x) (same : ∀ scene, y scene = x scene) :
    Enacts I y := by
  rwa [funext same]

theorem ask (query : Query) (forward : query.Forward I) (read : Except Abort (Option Value) → α) :
    Enacts I fun scene => query.put scene.driver scene.session >>= fun r =>
      .ok (read r.1, scene.withDriver r.2.1 r.2.2) := by
  intro bindings
  refine ((Voices.ask forward).bind fun answer => .done (read answer, bindings)).congr fun d s => ?_
  dsimp only
  cases query.put d s <;> rfl

theorem following {x rest : Scene → Except Halt (Flow × Scene)} (first : Enacts I x) (after : Enacts I rest) :
    Enacts I fun scene => x scene >>= Script.proceed rest := by
  refine first.bind (f := fun flow scene => Script.proceed rest (flow, scene)) fun flow => ?_
  cases flow with
  | next => exact after
  | given v => exact done (Flow.given v) id
  | aborted abort => exact done (Flow.aborted abort) id

section Parts
variable {parts : List Part} (forward : ∀ part ∈ parts, part.runner.Forward I)
  (patterns : ∀ pattern, Runner.Forward I fun c s => do return (← (Prim.pattern pattern).run c, s))
include forward

theorem partAt (n : Nat) : (partAt parts n).runner.Forward I := by
  unfold ParseEngine.partAt
  cases found : parts[n]? with
  | some part => exact forward part (List.mem_of_getElem? found)
  | none =>
      constructor
      · intro c s v d t _ ran
        obtain ⟨found, -, failed, -⟩ := Runner.failHere_eq_ok ran
        cases failed
      · intro c s message d found t here ran
        obtain ⟨found, -, -, rfl⟩ := Runner.failHere_eq_ok ran
        exact here

omit forward in
theorem parse {p : Runner} (forward : p.Forward I) (description : String) :
    Enacts I fun scene => scene.driver.parse description p scene.session >>= fun r =>
      .ok (r.1, scene.withDriver r.2.1 r.2.2) := by
  refine (ask (.parse description p) forward (·.map (·.getD .unit))).congr fun scene => ?_
  simp only [Query.put, bind_assoc, ok_bind]
  congr 1
  funext r
  cases r.1 <;> rfl

omit forward in
theorem loop {head : Scene → Except Halt (Option Flow × Scene)} {body : Scene → Except Halt (Flow × Scene)}
    (first : Enacts I head) (round : Enacts I body) (fuel : Nat) : Enacts I (Script.runLoop head body fuel) := by
  induction fuel with
  | zero => exact fun _ => .halts .outOfFuel
  | succ fuel ih =>
      let again (scene : Scene) := body scene >>= Script.proceed (Script.runLoop head body fuel)
      refine (first.bind (f := fun ended scene => Script.turn again (ended, scene)) fun ended => ?_).congr
        (Script.runLoop_succ head body fuel)
      cases ended with
      | some flow => exact done flow id
      | none => exact round.following ih

include patterns

theorem put (request : Request) : Enacts I fun scene => request.put parts scene := by
  cases request with
  | parse n description => exact parse (partAt forward n) _
  | optional n =>
      let part := ParseEngine.partAt parts n
      exact ask (.parseOptional part.description part.runner) (partAt forward n) (·.map Value.ofOption)
  | fail message =>
      refine (ask (.fail message) trivial (·.map (·.getD .unit))).congr fun scene => ?_
      simp only [Query.put, Request.put, bind_assoc, ok_bind]
      rfl
  | pattern source =>
      cases read : Pattern.ofString? source with
      | some pattern =>
          refine (parse (patterns pattern) (Prim.pattern pattern).description).congr fun scene => ?_
          rw [Request.put, Driver.parsePattern_of_some read]
          rfl
      | none =>
          let reason := (Diagnostic.malformedPattern source).message
          refine fun bindings => ((Voices.done (Except.error ⟨some reason⟩, bindings)).note
            fun _ => (·.logged (.stepsAborted reason))).congr fun d s => ?_
          dsimp only
          rw [Request.put, Driver.parsePattern_of_none read]
          rfl
  | foreignAbort => exact done (Except.error (Abort.mk none)) id

theorem plan (plan : Plan α) : Enacts I fun scene => plan.play parts scene := by
  induction plan with
  | ends a bindings => exact done a fun _ => bindings
  | ask request next ih =>
      exact (put forward patterns request).bind fun answer => seeing fun outlook => ih answer outlook
  | note event next ih => exact observe event ih

theorem block (fuel : Nat) (script : List Stmt) : Enacts I (Script.runBlock parts fuel script) := by
  induction fuel generalizing script with
  | zero => exact fun _ => .halts .outOfFuel
  | succ fuel ih =>
      cases script with
      | nil => exact done Flow.next id
      | cons stmt rest =>
          have first : Enacts I fun scene => Script.runStmt parts fuel scene stmt := by
            cases stmt with
            | follow choose => exact seeing fun outlook => plan forward patterns (choose outlook)
            | rounds head body =>
                exact loop (seeing fun outlook => plan forward patterns (head outlook)) (ih body) fuel
            | branch of test yes no => exact eval of fun v => ih (if test v then yes else no)
            | assign bind of => exact eval of fun v => done Flow.next ((bind, v) :: ·)
            | note of => exact eval of fun v => observe (.note v) (done Flow.next id)
            | give of => exact eval of fun v => done (Flow.given v) id
          exact (first.following (ih rest)).congr fun scene => Script.runBlock_cons parts fuel stmt rest scene

theorem script (fuel : Nat) (script : List Stmt) : ∃ plan : Driver → Dialogue (Except Abort Value),
    (∀ d, (plan d).Forward I) ∧ Script.run fuel parts script = Dialogue.run plan := by
  have answers := (block forward patterns fuel script []).bind fun r => .done r.1.answer
  obtain ⟨plan, forward, plays⟩ := answers
  refine ⟨plan, forward, ?_⟩
  funext c s
  rw [Dialogue.run, ← plays, Script.run]
  dsimp only
  cases Script.runBlock parts fuel script ⟨.start c, s, []⟩ with
  | error halt => rfl
  | ok r =>
      obtain ⟨flow, scene⟩ := r
      cases flow <;> rfl

end Parts
end Enacts
end Dialogue

end ParseEngine
