import Mathlib.Data.List.Forall2
import ParseEngine.Proofs.Expression

/-!
Two runs side by side, from the same cursor in the same session.

A coupling says where runs may start, in which sessions, and which outcomes of the two may stand for each other.
Successes that do are equal, while failures may lie apart in their contexts. Combinators and scripts never look at
the context of a failure, so they carry a coupling from their parts to the whole.
-/

namespace ParseEngine

inductive Alongside {α β : Type} (R : α → β → Prop) : Except Halt α → Except Halt β → Prop
  | ok {a : α} {b : β} (related : R a b) : Alongside R (.ok a) (.ok b)
  | error (halt : Halt) : Alongside R (.error halt) (.error halt)

namespace Alongside
variable {α β γ δ : Type} {R : α → β → Prop} {S : γ → δ → Prop} {x : Except Halt α} {y : Except Halt β}

theorem bind {f : α → Except Halt γ} {g : β → Except Halt δ} (first : Alongside R x y)
    (second : ∀ a b, R a b → Alongside S (f a) (g b)) : Alongside S (x >>= f) (y >>= g) := by
  cases first with
  | ok related => exact second _ _ related
  | error halt => exact .error halt

theorem weaken {R' : α → β → Prop} (both : Alongside R x y) (imp : ∀ a b, R a b → R' a b) : Alongside R' x y := by
  cases both with
  | ok related => exact .ok (imp _ _ related)
  | error halt => exact .error halt

theorem same {R : α → α → Prop} {x : Except Halt α} (related : ∀ a, x = .ok a → R a a) : Alongside R x x := by
  cases x with
  | ok a => exact .ok (related a rfl)
  | error halt => exact .error halt

theorem map_eq {f : α → γ} {g : β → γ} (both : Alongside R x y) (same : ∀ a b, R a b → f a = g b) :
    x.map f = y.map g := by
  cases both with
  | ok related => exact congrArg Except.ok (same _ _ related)
  | error halt => rfl

theorem eq {P : α → Prop} {x y : Except Halt α} (both : Alongside (fun a b => a = b ∧ P a) x y) :
    x = y ∧ ∀ a, y = .ok a → P a := by
  cases both with
  | ok related =>
      obtain ⟨rfl, holds⟩ := related
      exact ⟨rfl, fun _ given => Except.ok.inj given ▸ holds⟩
  | error halt => exact ⟨rfl, fun _ given => nomatch given⟩

end Alongside

structure Coupling where
  place : Cursor → Prop
  outcomes : Outcome → Outcome → Prop
  sessions : Session → Prop

namespace Coupling

structure Similar (K : Coupling) (f f' : Failure) : Prop where
  message : f.message = f'.message
  found : f.found = f'.found
  index : f.cursor.index = f'.cursor.index
  outcomes : ∀ message, K.outcomes (.failure message f.cursor f.found) (.failure message f'.cursor f'.found)

inductive Matches (K : Coupling) : Outcome → Outcome → Prop
  | success (v : Value) {c : Cursor} (place : K.place c) : Matches K (.success v c) (.success v c)
  | failure (message : String) {c c' : Cursor} {found : String} (index : c.index = c'.index)
      (outcomes : ∀ other, K.outcomes (.failure other c found) (.failure other c' found)) :
      Matches K (.failure message c found) (.failure message c' found)

structure Lawful (K : Coupling) : Prop where
  success : ∀ v c, K.place c → K.outcomes (.success v c) (.success v c)
  failed : ∀ message c found, K.place c → c.preview = .ok found →
    K.outcomes (.failure message c found) (.failure message c found)
  pattern : ∀ (p : Pattern) c o, K.place c → (Prim.pattern p).run c = .ok o → K.outcomes o o
  cases : ∀ o o', K.outcomes o o' → K.Matches o o'
  noted : ∀ s f, K.sessions s → K.sessions (s.annotate f)

abbrev Results (K : Coupling) : Except Halt (Outcome × Session) → Except Halt (Outcome × Session) → Prop :=
  Alongside fun r r' => K.outcomes r.1 r'.1 ∧ r.2 = r'.2 ∧ K.sessions r.2

def Runs (K : Coupling) (p p' : Runner) : Prop :=
  ∀ c s, K.place c → K.sessions s → K.Results (p c s) (p' c s)

variable {K : Coupling} {p p' q q' : Runner} {c : Cursor} {s : Session}

namespace Lawful

theorem step (lawful : K.Lawful) {α β : Type} {R : α → β → Prop} {x x' : Except Halt (Outcome × Session)}
    {next : Outcome × Session → Except Halt α} {next' : Outcome × Session → Except Halt β} (ran : K.Results x x')
    (success : ∀ v d t, K.place d → K.sessions t → Alongside R (next (.success v d, t)) (next' (.success v d, t)))
    (failure : ∀ message d d' found t, K.Similar ⟨message, d, found⟩ ⟨message, d', found⟩ → K.sessions t →
      Alongside R (next (.failure message d found, t)) (next' (.failure message d' found, t))) :
    Alongside R (x >>= next) (x' >>= next') := by
  refine ran.bind fun r r' related => ?_
  obtain ⟨o, t⟩ := r
  obtain ⟨o', t'⟩ := r'
  obtain ⟨outcomes, rfl, ready⟩ := related
  cases lawful.cases o o' outcomes with
  | success v place => exact success v _ t place ready
  | failure message index reworded => exact failure message _ _ _ t ⟨rfl, rfl, index, reworded⟩ ready

theorem failAt (lawful : K.Lawful) (message : String) (place : K.place c) :
    Alongside K.outcomes (Outcome.failAt message c) (Outcome.failAt message c) := by
  refine .same fun o failed => ?_
  obtain ⟨found, shown, rfl⟩ := Outcome.failAt_eq_ok failed
  exact lawful.failed message c found place shown

theorem computed {x x' : Except Halt Outcome} (both : Alongside K.outcomes x x') (ready : K.sessions s) :
    K.Results (x >>= fun o => .ok (o, s)) (x' >>= fun o => .ok (o, s)) :=
  both.bind fun _ _ outcomes => .ok ⟨outcomes, rfl, ready⟩

theorem yield (lawful : K.Lawful) (v : Value) : K.Runs (.yield v) (.yield v) :=
  fun c _ place ready => .ok ⟨lawful.success v c place, rfl, ready⟩

theorem failHere (lawful : K.Lawful) (message : String) : K.Runs (.failHere message) (.failHere message) :=
  fun _ _ place ready => computed (lawful.failAt message place) ready

theorem andThen (lawful : K.Lawful) {next next' : Value → Runner} (first : K.Runs p p')
    (rest : ∀ v, K.Runs (next v) (next' v)) : K.Runs (p.andThen next) (p'.andThen next') := by
  intro c s place ready
  refine lawful.step (first c s place ready) ?_ ?_
  · intro v d t place ready
    exact rest v d t place ready
  · intro message d d' found t similar ready
    exact .ok ⟨similar.outcomes message, rfl, ready⟩

theorem mapValue (lawful : K.Lawful) (f : Value → Value) (part : K.Runs p p') :
    K.Runs (p.mapValue f) (p'.mapValue f) := by
  intro c s place ready
  refine lawful.step (part c s place ready) ?_ ?_
  · intro v d t place ready
    exact .ok ⟨lawful.success (f v) d place, rfl, ready⟩
  · intro message d d' found t similar ready
    exact .ok ⟨similar.outcomes message, rfl, ready⟩

theorem pair (lawful : K.Lawful) (first : K.Runs p p') (second : K.Runs q q') :
    K.Runs (p.pair q) (p'.pair q') :=
  lawful.andThen first fun v => lawful.mapValue (.pair v) second

theorem orElse (lawful : K.Lawful) (first : K.Runs p p') (second : K.Runs q q') :
    K.Runs (p.orElse q) (p'.orElse q') := by
  intro c s place ready
  refine lawful.step (first c s place ready) ?_ ?_
  · intro v d t place ready
    exact .ok ⟨lawful.success v d place, rfl, ready⟩
  · intro message d d' found t similar ready
    have index : d.index = d'.index := similar.index
    by_cases here : d.index = c.index
    · simp only [if_pos here, if_pos (index ▸ here)]
      exact second c t place ready
    · simp only [if_neg here, if_neg (index ▸ here)]
      exact .ok ⟨similar.outcomes message, rfl, ready⟩

theorem adapt (lawful : K.Lawful) (adapter : Adapter) (part : K.Runs p p') :
    K.Runs (.adapt adapter p) (.adapt adapter p') := by
  intro c s place ready
  refine lawful.step (part c s place ready) ?_ ?_
  · intro v d t after ready
    refine computed ?_ ready
    have same := lawful.success v d after
    cases adapter with
    | map f => exact .ok (lawful.success (f v) d after)
    | filter test message =>
        simp only [Adapter.apply]
        split
        · exact .ok same
        · exact lawful.failAt message place
    | lookahead => exact .ok (lawful.success v c place)
    | optional => exact .ok (lawful.success (.present v) d after)
    | «unless» what => exact lawful.failAt _ place
    | _ => exact .ok same
  · intro message d d' found t similar ready
    refine computed ?_ ready
    have same := similar.outcomes message
    cases adapter with
    | label other => exact .ok (similar.outcomes other)
    | tag name => exact .ok (similar.outcomes _)
    | attempt => exact lawful.failAt message place
    | optional => exact .ok (lawful.success .absent c place)
    | «unless» what => exact .ok (lawful.success .unit c place)
    | _ => exact .ok same

theorem sequence (lawful : K.Lawful) {es : List Expr} {run run' : Engine}
    (parts : ∀ e ∈ es, K.Runs (run e) (run' e)) (collected : List Value) :
    K.Runs (.sequenceFrom (es.map run) collected) (.sequenceFrom (es.map run') collected) := by
  induction es generalizing collected with
  | nil => exact lawful.yield _
  | cons e es ih =>
      refine lawful.andThen (parts e List.mem_cons_self) fun v => ih (fun p member => ?_) (v :: collected)
      exact parts p (List.mem_cons_of_mem _ member)

theorem count (lawful : K.Lawful) (part : K.Runs p p') (n : Nat) (collected : List Value) :
    K.Runs (.countFrom p n collected) (.countFrom p' n collected) := by
  induction n generalizing collected with
  | zero => exact lawful.yield _
  | succ n ih => exact lawful.andThen part fun v => ih (v :: collected)

theorem many (lawful : K.Lawful) (required : Bool) (part : K.Runs p p') (fuel : Nat) (collected : List Value) :
    K.Runs (.manyFrom required p fuel collected) (.manyFrom required p' fuel collected) := by
  induction fuel generalizing collected with
  | zero => exact fun _ _ _ _ => .error .outOfFuel
  | succ fuel ih =>
      intro c s place ready
      refine lawful.step (part c s place ready) ?_ ?_
      · intro v d t after ready
        dsimp only
        split
        · exact lawful.failHere _ c t place ready
        · exact ih (v :: collected) d t after ready
      · intro message d d' found t similar ready
        dsimp only
        split
        · exact .ok ⟨similar.outcomes message, rfl, ready⟩
        · exact lawful.yield _ c t place ready

theorem separated (lawful : K.Lawful) (item : K.Runs p p') (separator : K.Runs q q') (fuel : Nat)
    (collected : List Value) : K.Runs (.separatedFrom p q fuel collected) (.separatedFrom p' q' fuel collected) := by
  induction fuel generalizing collected with
  | zero => exact fun _ _ _ _ => .error .outOfFuel
  | succ fuel ih =>
      intro c s place ready
      have stops (t : Session) (ready : K.sessions t) := lawful.yield (.list collected.reverse) c t place ready
      refine lawful.step (separator c s place ready) ?_ (fun _ _ _ _ t _ ready => stops t ready)
      intro v d t after ready
      refine lawful.step (item d t after ready) ?_ (fun _ _ _ _ t _ ready => stops t ready)
      intro w e t after ready
      dsimp only
      split
      · exact lawful.failHere _ c t place ready
      · exact ih (w :: collected) e t after ready

theorem sepBy (lawful : K.Lawful) (required : Bool) (item : K.Runs p p') (separator : K.Runs q q') (fuel : Nat) :
    K.Runs (.sepBy required fuel p q) (.sepBy required fuel p' q') := by
  intro c s place ready
  refine lawful.step (item c s place ready) ?_ ?_
  · intro v d t after ready
    exact lawful.separated item separator fuel [v] d t after ready
  · intro message d d' found t similar ready
    cases required with
    | true => exact .ok ⟨similar.outcomes message, rfl, ready⟩
    | false => exact lawful.yield _ c t place ready

theorem foldLeft (lawful : K.Lawful) (f : Value → Value → Value → Value) (term : K.Runs p p') (op : K.Runs q q')
    (fuel : Nat) : K.Runs (.foldLeft fuel p q f) (.foldLeft fuel p' q' f) := by
  have rounds (fuel : Nat) (acc : Value) : K.Runs (.foldFrom p q f fuel acc) (.foldFrom p' q' f fuel acc) := by
    induction fuel generalizing acc with
    | zero => exact fun _ _ _ _ => .error .outOfFuel
    | succ fuel ih =>
        intro c s place ready
        refine lawful.step (op c s place ready) ?_ ?_
        · intro v d t after ready
          exact lawful.andThen term (fun b => ih (f acc v b)) d t after ready
        · intro message d d' found t similar ready
          exact lawful.yield acc c t place ready
  exact lawful.andThen term fun a => rounds fuel a

end Lawful

theorem Similar.reworded {f f' : Failure} (similar : K.Similar f f') (message : String) :
    K.Similar { f with message } { f' with message } :=
  ⟨rfl, similar.found, similar.index, similar.outcomes⟩

theorem map_eq_of_forall₂ {α β γ : Type} {R : α → β → Prop} {f : α → γ} {f' : β → γ}
    (same : ∀ a b, R a b → f a = f' b) {as : List α} {bs : List β} (all : List.Forall₂ R as bs) :
    as.map f = bs.map f' := by
  have mapped : List.Forall₂ Eq (as.map f) (bs.map f') :=
    List.forall₂_map_left_iff.2 (List.forall₂_map_right_iff.2 (all.imp same))
  rwa [List.forall₂_eq_eq_eq] at mapped

theorem furthest?_similar {fs fs' : List Failure} (all : List.Forall₂ K.Similar fs fs') :
    (Failure.furthest? fs = none ∧ Failure.furthest? fs' = none) ∨
      ∃ f f', Failure.furthest? fs = some f ∧ Failure.furthest? fs' = some f' ∧ K.Similar f f' := by
  have reach : Failure.reach fs = Failure.reach fs' := by
    unfold Failure.reach
    rw [map_eq_of_forall₂ (fun _ _ similar => similar.index) all]
  have tied : List.Forall₂ K.Similar (fs.filter (·.cursor.index == Failure.reach fs))
      (fs'.filter (·.cursor.index == Failure.reach fs')) := by
    refine List.rel_filter (fun f f' similar => ?_) all
    dsimp only
    rw [similar.index, reach]
  have messages := map_eq_of_forall₂ (fun _ _ similar => similar.message) tied
  unfold Failure.furthest?
  dsimp only
  rw [messages]
  revert tied
  generalize fs.filter _ = ts
  generalize fs'.filter _ = ts'
  intro tied
  cases tied with
  | nil => exact .inl ⟨rfl, rfl⟩
  | cons first _ => exact .inr ⟨_, _, rfl, rfl, first.reworded _⟩

theorem Lawful.choice (lawful : K.Lawful) {es : List Expr} {run run' : Engine}
    (parts : ∀ e ∈ es, K.Runs (run e) (run' e)) {failed failed' : List Failure}
    (earlier : List.Forall₂ K.Similar failed failed') :
    K.Runs (.choiceFrom (es.map run) failed) (.choiceFrom (es.map run') failed') := by
  induction es generalizing failed failed' with
  | nil =>
      intro c s place ready
      simp only [List.map_nil, Runner.choiceFrom]
      rcases furthest?_similar (List.rel_reverse earlier) with ⟨none, none'⟩ | ⟨f, f', some, some', similar⟩
      · rw [none, none']
        exact lawful.failHere _ c s place ready
      · rw [some, some']
        refine .ok ⟨?_, rfl, ready⟩
        change K.outcomes _ (.failure f'.message f'.cursor f'.found)
        rw [← similar.message]
        exact similar.outcomes f.message
  | cons e es ih =>
      intro c s place ready
      refine lawful.step (parts e List.mem_cons_self c s place ready) ?_ ?_
      · intro v d t after ready
        exact .ok ⟨lawful.success v d after, rfl, ready⟩
      · intro message d d' found t similar ready
        have others (p : Expr) (member : p ∈ es) := parts p (List.mem_cons_of_mem _ member)
        exact ih others (.cons similar earlier) c t place ready

inductive Drivers (K : Coupling) : Driver → Driver → Prop
  | running {c : Cursor} {history : List Frame} (place : K.place c) : Drivers K ⟨c, history, none⟩ ⟨c, history, none⟩
  | stopped {c : Cursor} {history : List Frame} {f f' : Failure} (place : K.place c) (similar : K.Similar f f') :
      Drivers K ⟨c, history, some f⟩ ⟨c, history, some f'⟩

inductive Scenes (K : Coupling) : Scene → Scene → Prop
  | mk {d d' : Driver} {s : Session} {bindings : List (String × Value)} (drivers : K.Drivers d d')
      (ready : K.sessions s) : Scenes K ⟨d, s, bindings⟩ ⟨d', s, bindings⟩

abbrev Answers (K : Coupling) {α : Type} :
    Except Halt (Except Abort α × Driver × Session) → Except Halt (Except Abort α × Driver × Session) → Prop :=
  Alongside fun r r' => r.1 = r'.1 ∧ K.Drivers r.2.1 r'.2.1 ∧ r.2.2 = r'.2.2 ∧ K.sessions r.2.2

abbrev Plays (K : Coupling) {α : Type} : Except Halt (α × Scene) → Except Halt (α × Scene) → Prop :=
  Alongside fun r r' => r.1 = r'.1 ∧ K.Scenes r.2 r'.2

variable {d d' : Driver} {scene scene' : Scene}

mutual
theorem Scenes.eval (scenes : K.Scenes scene scene') : (t : Term) → scene.eval t = scene'.eval t
  | .var name => by
      cases scenes
      rw [Scene.eval, Scene.eval]
      rfl
  | .list items => by rw [Scene.eval, Scene.eval, scenes.evalAll items]
  | .pair a b => by rw [Scene.eval, Scene.eval, scenes.eval a, scenes.eval b]
  | .apply f argument => by rw [Scene.eval, Scene.eval, scenes.eval argument]
  | .constant v => by rw [Scene.eval, Scene.eval]
  | .position => by
      obtain ⟨drivers, -⟩ := scenes
      rw [Scene.eval, Scene.eval]
      cases drivers <;> rfl
  | .history => by
      obtain ⟨drivers, -⟩ := scenes
      rw [Scene.eval, Scene.eval]
      cases drivers <;> rfl
  | .remaining => by
      obtain ⟨drivers, -⟩ := scenes
      rw [Scene.eval, Scene.eval]
      cases drivers <;> rfl

theorem Scenes.evalAll (scenes : K.Scenes scene scene') : (ts : List Term) → scene.evalAll ts = scene'.evalAll ts
  | [] => by rw [Scene.evalAll, Scene.evalAll]
  | t :: rest => by rw [Scene.evalAll, Scene.evalAll, scenes.eval t, scenes.evalAll rest]
end

theorem Scenes.outlook (scenes : K.Scenes scene scene') : scene.outlook = scene'.outlook := by
  obtain ⟨drivers, -⟩ := scenes
  cases drivers <;> rfl

namespace Lawful

theorem parse (lawful : K.Lawful) (drivers : K.Drivers d d') (description : String) (part : K.Runs p p')
    (ready : K.sessions s) : K.Answers (d.parse description p s) (d'.parse description p' s) := by
  cases drivers with
  | stopped place similar => exact .ok ⟨rfl, .stopped place similar, rfl, ready⟩
  | running place =>
      refine lawful.step (part _ s place ready) ?_ ?_
      · intro v c t after ready
        exact .ok ⟨rfl, .running after, rfl, ready⟩
      · intro message c c' found t similar ready
        have index : c.index = c'.index := similar.index
        refine .ok ⟨rfl, .stopped place similar, by rw [index], ?_⟩
        exact lawful.noted t (·.logged (.stepFailed _ description c.index message)) ready

theorem parseOptional (lawful : K.Lawful) (drivers : K.Drivers d d') (description : String) (part : K.Runs p p')
    (ready : K.sessions s) : K.Answers (d.parseOptional description p s) (d'.parseOptional description p' s) := by
  cases drivers with
  | stopped place similar => exact .ok ⟨rfl, .stopped place similar, rfl, ready⟩
  | running place =>
      refine lawful.step (part _ s place ready) ?_ ?_
      · intro v c t after ready
        exact .ok ⟨rfl, .running after, rfl, ready⟩
      · intro message c c' found t similar ready
        exact .ok ⟨rfl, .running place, rfl, ready⟩

theorem fail (lawful : K.Lawful) (drivers : K.Drivers d d') (message : String) :
    Alongside (fun r r' => r.1 = r'.1 ∧ K.Drivers r.2 r'.2) (d.fail message) (d'.fail message) := by
  cases drivers with
  | stopped place similar => exact .ok ⟨rfl, .stopped place similar⟩
  | @running c history place =>
      simp only [Driver.fail, Option.isSome_none, Bool.false_eq_true, if_false]
      refine Alongside.bind (R := fun found found' => found = found' ∧ c.preview = .ok found)
        (.same fun found shown => ⟨rfl, shown⟩) ?_
      rintro found _ ⟨rfl, shown⟩
      exact .ok ⟨rfl, .stopped place ⟨rfl, rfl, rfl, fun other => lawful.failed other c found place shown⟩⟩

theorem parsePattern (lawful : K.Lawful) (drivers : K.Drivers d d') (source : String) (ready : K.sessions s) :
    K.Answers (d.parsePattern source s) (d'.parsePattern source s) := by
  cases read : Pattern.ofString? source with
  | some pattern =>
      rw [Driver.parsePattern_of_some read, Driver.parsePattern_of_some read]
      refine lawful.parse drivers _ (fun c s place ready => computed ?_ ready) ready
      exact .same fun o ran => lawful.pattern pattern c o place ran
  | none =>
      rw [Driver.parsePattern_of_none read, Driver.parsePattern_of_none read]
      let reason := (Diagnostic.malformedPattern source).message
      exact .ok ⟨rfl, drivers, rfl, lawful.noted s (·.logged (.stepsAborted reason)) ready⟩

section Parts
variable (lawful : K.Lawful) (describe : Expr → String) {es : List Expr} {run run' : Engine}
  (parts : ∀ e ∈ es, K.Runs (run e) (run' e))
include lawful parts

theorem partAt (n : Nat) :
    (partAt (Routine.partsOf describe es run) n).description =
        (partAt (Routine.partsOf describe es run') n).description ∧
      K.Runs (partAt (Routine.partsOf describe es run) n).runner
        (partAt (Routine.partsOf describe es run') n).runner := by
  simp only [ParseEngine.partAt, Routine.partsOf, List.getElem?_map]
  cases found : es[n]? with
  | none => exact ⟨rfl, lawful.failHere ""⟩
  | some p => exact ⟨rfl, parts p (List.mem_of_getElem? found)⟩

theorem put (request : Request) (scenes : K.Scenes scene scene') :
    K.Plays (request.put (Routine.partsOf describe es run) scene)
      (request.put (Routine.partsOf describe es run') scene') := by
  obtain ⟨drivers, ready⟩ := scenes
  cases request with
  | parse n description =>
      obtain ⟨same, part⟩ := lawful.partAt describe parts n
      simp only [Request.put, same]
      refine (lawful.parse drivers _ part ready).bind ?_
      rintro ⟨answer, d, s⟩ ⟨_, d', _⟩ ⟨rfl, drivers, rfl, ready⟩
      exact .ok ⟨rfl, .mk drivers ready⟩
  | optional n =>
      obtain ⟨same, part⟩ := lawful.partAt describe parts n
      simp only [Request.put, same]
      refine (lawful.parseOptional drivers _ part ready).bind ?_
      rintro ⟨answer, d, s⟩ ⟨_, d', _⟩ ⟨rfl, drivers, rfl, ready⟩
      exact .ok ⟨rfl, .mk drivers ready⟩
  | fail message =>
      refine (lawful.fail drivers message).bind ?_
      rintro ⟨abort, d⟩ ⟨_, d'⟩ ⟨rfl, drivers⟩
      exact .ok ⟨rfl, .mk drivers ready⟩
  | pattern source =>
      refine (lawful.parsePattern drivers source ready).bind ?_
      rintro ⟨answer, d, s⟩ ⟨_, d', _⟩ ⟨rfl, drivers, rfl, ready⟩
      exact .ok ⟨rfl, .mk drivers ready⟩
  | foreignAbort => exact .ok ⟨rfl, .mk drivers ready⟩

omit parts in
theorem observed (scenes : K.Scenes scene scene') (event : Nat → Nat → TraceEvent) :
    K.Scenes (scene.observe event) (scene'.observe event) := by
  obtain ⟨drivers, ready⟩ := scenes
  cases drivers with
  | running place => exact .mk (.running place) (lawful.noted _ (·.traced _) ready)
  | stopped place similar => exact .mk (.stopped place similar) (lawful.noted _ (·.traced _) ready)

omit lawful parts in
theorem bound (scenes : K.Scenes scene scene') (name : String) (v : Value) :
    K.Scenes (scene.bind name v) (scene'.bind name v) := by
  obtain ⟨drivers, ready⟩ := scenes
  exact .mk drivers ready

theorem plan {α : Type} (plan : Plan α) (scenes : K.Scenes scene scene') :
    K.Plays (plan.play (Routine.partsOf describe es run) scene)
      (plan.play (Routine.partsOf describe es run') scene') := by
  induction plan generalizing scene scene' with
  | ends a bindings =>
      obtain ⟨drivers, ready⟩ := scenes
      exact .ok ⟨rfl, .mk drivers ready⟩
  | ask request next ih =>
      refine (lawful.put describe parts request scenes).bind ?_
      rintro ⟨answer, scene⟩ ⟨_, scene'⟩ ⟨rfl, scenes⟩
      rw [scenes.outlook]
      exact ih answer _ scenes
  | note event next ih => exact ih (lawful.observed scenes event)

omit lawful parts in
theorem following {x x' : Except Halt (Flow × Scene)} {rest rest' : Scene → Except Halt (Flow × Scene)}
    (first : K.Plays x x')
    (later : ∀ scene scene', K.Scenes scene scene' → K.Plays (rest scene) (rest' scene')) :
    K.Plays (x >>= Script.proceed rest) (x' >>= Script.proceed rest') := by
  refine first.bind ?_
  rintro ⟨flow, scene⟩ ⟨_, scene'⟩ ⟨rfl, scenes⟩
  cases flow with
  | next => exact later scene scene' scenes
  | given v => exact .ok ⟨rfl, scenes⟩
  | aborted abort => exact .ok ⟨rfl, scenes⟩

omit lawful parts in
theorem loop {head head' : Scene → Except Halt (Option Flow × Scene)}
    {body body' : Scene → Except Halt (Flow × Scene)}
    (first : ∀ scene scene', K.Scenes scene scene' → K.Plays (head scene) (head' scene'))
    (round : ∀ scene scene', K.Scenes scene scene' → K.Plays (body scene) (body' scene')) (fuel : Nat)
    (scene scene' : Scene) (scenes : K.Scenes scene scene') :
    K.Plays (Script.runLoop head body fuel scene) (Script.runLoop head' body' fuel scene') := by
  induction fuel generalizing scene scene' with
  | zero => exact .error .outOfFuel
  | succ fuel ih =>
      rw [Script.runLoop_succ, Script.runLoop_succ]
      refine (first _ _ scenes).bind ?_
      rintro ⟨ended, scene⟩ ⟨_, scene'⟩ ⟨rfl, scenes⟩
      cases ended with
      | some flow => exact .ok ⟨rfl, scenes⟩
      | none => exact following (round _ _ scenes) ih

theorem block (fuel : Nat) (script : List Stmt) (scene scene' : Scene) (scenes : K.Scenes scene scene') :
    K.Plays (Script.runBlock (Routine.partsOf describe es run) fuel script scene)
      (Script.runBlock (Routine.partsOf describe es run') fuel script scene') := by
  induction fuel generalizing script scene scene' with
  | zero => exact .error .outOfFuel
  | succ fuel ih =>
      cases script with
      | nil => exact .ok ⟨rfl, scenes⟩
      | cons stmt rest =>
          rw [Script.runBlock_cons, Script.runBlock_cons]
          refine following ?_ (ih rest)
          cases stmt with
          | follow choose =>
              simp only [Script.runStmt, scenes.outlook]
              exact lawful.plan describe parts _ scenes
          | rounds head body =>
              refine loop (fun _ _ scenes => ?_) (ih body) fuel _ _ scenes
              rw [scenes.outlook]
              exact lawful.plan describe parts _ scenes
          | branch of test yes no =>
              simp only [Script.runStmt, scenes.eval of]
              exact Alongside.bind (R := Eq) (.same fun _ _ => rfl) fun v _ same => same ▸ ih _ _ _ scenes
          | assign bind of =>
              simp only [Script.runStmt, scenes.eval of]
              exact Alongside.bind (R := Eq) (.same fun _ _ => rfl) fun v _ same =>
                same ▸ .ok ⟨rfl, bound scenes bind v⟩
          | note of =>
              simp only [Script.runStmt, scenes.eval of]
              exact Alongside.bind (R := Eq) (.same fun _ _ => rfl) fun v _ same =>
                same ▸ .ok ⟨rfl, lawful.observed scenes _⟩
          | give of =>
              simp only [Script.runStmt, scenes.eval of]
              exact Alongside.bind (R := Eq) (.same fun _ _ => rfl) fun v _ same => same ▸ .ok ⟨rfl, scenes⟩

omit parts in
theorem finish (drivers : K.Drivers d d') (answer : Except Abort Value) :
    Alongside K.outcomes (d.finish answer) (d'.finish answer) := by
  cases drivers with
  | stopped place similar =>
      simp only [Driver.finish, similar.message]
      exact .ok (similar.outcomes _)
  | running place =>
      cases answer with
      | ok v => exact .ok (lawful.success v _ place)
      | error abort => exact lawful.failAt _ place

theorem script (fuel : Nat) (script : List Stmt) :
    K.Runs (Script.run fuel (Routine.partsOf describe es run) script)
      (Script.run fuel (Routine.partsOf describe es run') script) := by
  intro c s place ready
  refine (lawful.block describe parts fuel script _ _ (.mk (.running place) ready)).bind ?_
  rintro ⟨flow, scene⟩ ⟨_, scene'⟩ ⟨rfl, ⟨drivers, ready⟩⟩
  exact computed (lawful.finish drivers _) ready

end Parts

/-- Apart from rules, interceptors and detached parts, expressions carry a coupling from their parts to the whole. -/
theorem routine (lawful : K.Lawful) {e : Expr} (composite : e.isComposite) (attached : ∀ p, e ≠ .detached p)
    (describe : Expr → String) (fuel : Nat) {run run' : Engine}
    (prims : ∀ p c o, e = .prim p → K.place c → p.run c = .ok o → K.outcomes o o)
    (parts : ∀ p, p.Part e → K.Runs (run p) (run' p)) :
    K.Runs (fun c => e.routine describe fuel c run) (fun c => e.routine describe fuel c run') := by
  cases e with
  | prim p => exact fun c s place ready => computed (.same fun o ran => prims p c o rfl place ran) ready
  | adapt adapter p => exact lawful.adapt adapter (parts _ .adapt)
  | chain p next => exact lawful.andThen (parts _ .chain) fun v => parts _ (.next v)
  | pair a b => exact lawful.pair (parts _ .pairFirst) (parts _ .pairSecond)
  | orElse a b => exact lawful.orElse (parts _ .orElseFirst) (parts _ .orElseSecond)
  | many required p => exact lawful.many required (parts _ .many) fuel []
  | count n p => exact lawful.count (parts _ .count) n []
  | sepBy required item separator => exact lawful.sepBy required (parts _ .item) (parts _ .separator) fuel
  | foldLeft term op f => exact lawful.foldLeft f (parts _ .term) (parts _ .op) fuel
  | sequence es => exact lawful.sequence (fun p member => parts p (.sequence member)) []
  | choice es => exact lawful.choice (fun p member => parts p (.choice member)) .nil
  | rule r => cases composite
  | detached p => exact absurd rfl (attached p)
  | steps es script => exact lawful.script describe (fun p member => parts p (.steps member)) fuel script
  | intercept interceptor p => cases composite

end Lawful
end Coupling
end ParseEngine
