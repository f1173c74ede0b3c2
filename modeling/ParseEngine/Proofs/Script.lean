import ParseEngine.Proofs.Routine

namespace ParseEngine

structure Stage where
  driver : Driver
  bindings : List (String × Value)

def Stage.scene (stage : Stage) (s : Session) : Scene :=
  { driver := stage.driver, session := s, bindings := stage.bindings }

def Stage.outlook (stage : Stage) : Outlook :=
  ⟨stage.bindings, stage.driver.cursor, stage.driver.history⟩

def Scene.stage (scene : Scene) : Stage :=
  { driver := scene.driver, bindings := scene.bindings }

def Scene.apart {α : Type} (x : Except Halt (α × Scene)) : Except Halt ((α × Stage) × Session) :=
  x.map fun r => ((r.1, r.2.stage), r.2.session)

theorem Scene.apart_bind {α β : Type} (x : Except Halt β) (f : β → Except Halt (α × Scene)) :
    Scene.apart (x >>= f) = x >>= fun b => Scene.apart (f b) := by
  cases x <;> rfl

mutual
def Stmt.isLoopFree : Stmt → Bool
  | .rounds .. => false
  | .branch _ _ yes no => Script.isLoopFree yes && Script.isLoopFree no
  | _ => true

def Script.isLoopFree : List Stmt → Bool
  | [] => true
  | stmt :: rest => stmt.isLoopFree && Script.isLoopFree rest
end

mutual
def Stmt.size : Stmt → Nat
  | .rounds _ body => Script.size body
  | .branch _ _ yes no => Script.size yes + Script.size no
  | _ => 0

def Script.size : List Stmt → Nat
  | [] => 0
  | stmt :: rest => stmt.size + Script.size rest + 1
end

namespace Script

def runStmt (parts : List Part) (fuel : Nat) (scene : Scene) : Stmt → Except Halt (Flow × Scene)
  | .follow plan => (plan scene.outlook).play parts scene
  | .rounds head body =>
      runLoop (fun scene => (head scene.outlook).play parts scene) (runBlock parts fuel body) fuel scene
  | .branch of test yes no => scene.eval of >>= fun v => runBlock parts fuel (if test v then yes else no) scene
  | .assign bind of => scene.eval of >>= fun v => .ok (.next, scene.bind bind v)
  | .note of => scene.eval of >>= fun v => .ok (.next, scene.observe (.note v))
  | .give of => scene.eval of >>= fun v => .ok (.given v, scene)

def proceed (rest : Scene → Except Halt (Flow × Scene)) : Flow × Scene → Except Halt (Flow × Scene)
  | (.next, scene) => rest scene
  | (.given v, scene) => .ok (.given v, scene)
  | (.aborted abort, scene) => .ok (.aborted abort, scene)

def turn (round : Scene → Except Halt (Flow × Scene)) : Option Flow × Scene → Except Halt (Flow × Scene)
  | (some flow, scene) => .ok (flow, scene)
  | (none, scene) => round scene

theorem runLoop_succ (head : Scene → Except Halt (Option Flow × Scene)) (body : Scene → Except Halt (Flow × Scene))
    (fuel : Nat) (scene : Scene) :
    runLoop head body (fuel + 1) scene =
      head scene >>= turn fun scene => body scene >>= proceed (runLoop head body fuel) := by
  rw [runLoop]
  apply bind_congr
  rintro ⟨ended, scene⟩
  cases ended with
  | some flow => rfl
  | none =>
      apply bind_congr
      rintro ⟨flow, scene⟩
      cases flow <;> rfl

theorem runBlock_cons (parts : List Part) (fuel : Nat) (stmt : Stmt) (rest : List Stmt) (scene : Scene) :
    runBlock parts (fuel + 1) (stmt :: rest) scene =
      runStmt parts fuel scene stmt >>= proceed (runBlock parts fuel rest) := by
  cases stmt with
  | branch of test yes no =>
      simp only [runBlock, runStmt, bind_assoc]
      apply bind_congr
      intro v
      apply bind_congr
      rintro ⟨flow, scene⟩
      cases flow <;> rfl
  | assign bind of =>
      simp only [runBlock, runStmt, bind_assoc]
      rfl
  | note of =>
      simp only [runBlock, runStmt, bind_assoc]
      rfl
  | give of =>
      simp only [runBlock, runStmt, bind_assoc]
      rfl
  | _ =>
      simp only [runBlock, runStmt]
      apply bind_congr
      rintro ⟨flow, scene⟩
      cases flow <;> rfl

end Script

structure Driver.Allowed (D : Discipline) (d : Driver) : Prop where
  cursor : D.Allows d.cursor
  failure : ∀ failure, d.failure = some failure → D.Gives failure.toOutcome

variable {D : Discipline} {α β : Type} {P : α → Prop}

theorem Discipline.Allows.driver {c : Cursor} (here : D.Allows c) : (Driver.start c).Allowed D :=
  ⟨here, fun _ failed => by cases failed⟩

section Pattern
variable {source : String}

-- the equations of the definition are not used, as their proofs try to read the pattern
theorem Driver.parsePattern_of_some {pattern : Pattern} (read : Pattern.ofString? source = some pattern)
    (d : Driver) (s : Session) : d.parsePattern source s =
      d.parse (Prim.pattern pattern).description (fun c s => do return (← (Prim.pattern pattern).run c, s)) s := by
  delta Driver.parsePattern
  rw [read]

theorem Driver.parsePattern_of_none (read : Pattern.ofString? source = none) (d : Driver) (s : Session) :
    d.parsePattern source s = .ok (.error ⟨some (Diagnostic.malformedPattern source).message⟩, d,
      s.log (.stepsAborted (Diagnostic.malformedPattern source).message)) := by
  delta Driver.parsePattern
  rw [read]

end Pattern

namespace Driver.Allowed
variable {d : Driver}

theorem advance (allowed : d.Allowed D) {c : Cursor} (later : D.Allows c) (description : String) (v : Value) :
    (d.advance description v c).Allowed D :=
  ⟨later, allowed.failure⟩

theorem fail (allowed : d.Allowed D) {failure : Failure} (gives : D.Gives failure.toOutcome) :
    Driver.Allowed D { d with failure := some failure } :=
  ⟨allowed.cursor, fun _ failed => Option.some.inj failed ▸ gives⟩

theorem finish (allowed : d.Allowed D) (answer : Except Abort Value) :
    ∃ o, d.finish answer = .ok o ∧ D.Gives o := by
  unfold Driver.finish
  cases failed : d.failure with
  | some failure =>
      have gives := allowed.failure failure failed
      exact ⟨_, rfl, gives.fits, gives.le⟩
  | none =>
      cases answer with
      | ok v => exact ⟨_, rfl, allowed.cursor.success v⟩
      | error abort =>
          obtain ⟨o, defined, follows⟩ :=
            Outcome.failAt_follows (Driver.report d.history abort.text) allowed.cursor.fits
          exact ⟨o, defined, allowed.cursor.gives follows⟩

end Driver.Allowed

def Flow.answer : Flow → Except Abort Value
  | .next => .ok .unit
  | .given v => .ok v
  | .aborted abort => .error abort

mutual
theorem Scene.eval_defined {stage : Stage} {st : Setting} (fits : stage.driver.cursor.Fits st) :
    (t : Term) → ∃ v, ∀ s, (stage.scene s).eval t = .ok v
  | .var name => ⟨(stage.bindings.lookup name).getD .unit, fun _ => by rw [Scene.eval]; rfl⟩
  | .list items => by
      obtain ⟨vs, defined⟩ := Scene.evalAll_defined fits items
      exact ⟨.list vs, fun s => by simp only [Scene.eval, defined s, ok_bind]; rfl⟩
  | .pair a b => by
      obtain ⟨v, first⟩ := Scene.eval_defined fits a
      obtain ⟨w, second⟩ := Scene.eval_defined fits b
      exact ⟨.pair v w, fun s => by simp only [Scene.eval, first s, second s, ok_bind]; rfl⟩
  | .apply f argument => by
      obtain ⟨v, defined⟩ := Scene.eval_defined fits argument
      exact ⟨f v, fun s => by simp only [Scene.eval, defined s, ok_bind]; rfl⟩
  | .constant v => ⟨v, fun _ => rfl⟩
  | .position => ⟨.ofIndex stage.driver.cursor.index, fun _ => by rw [Scene.eval]; rfl⟩
  | .history => ⟨.list (stage.driver.history.map .frame), fun _ => by rw [Scene.eval]; rfl⟩
  | .remaining => by
      obtain ⟨before, rest, remains, -, -⟩ := fits.remaining
      refine ⟨.text (String.ofList rest), fun s => ?_⟩
      simp only [Scene.eval, Stage.scene, remains, ok_bind]
      rfl

theorem Scene.evalAll_defined {stage : Stage} {st : Setting} (fits : stage.driver.cursor.Fits st) :
    (ts : List Term) → ∃ vs, ∀ s, (stage.scene s).evalAll ts = .ok vs
  | [] => ⟨[], fun _ => rfl⟩
  | t :: rest => by
      obtain ⟨v, first⟩ := Scene.eval_defined fits t
      obtain ⟨vs, others⟩ := Scene.evalAll_defined fits rest
      exact ⟨v :: vs, fun s => by simp only [Scene.evalAll, first s, others s, ok_bind]; rfl⟩
end

namespace Routine

def Serves (D : Discipline) (p : Engine → Runner) : Prop :=
  ∀ c, D.Allows c → Orderly D (fun o => o.Follows D.setting c.index) fun run => p run c

namespace Orderly

theorem step {p : Engine → Runner} (serves : Serves D p) {d : Driver} (allowed : d.Allowed D)
    {next : Engine → Outcome × Session → Except Halt (α × Session)}
    (success : ∀ v c, D.Allows c → Orderly D P fun run s => next run (.success v c, s))
    (failure : ∀ message c found, D.Gives (.failure message c found) →
      Orderly D P fun run s => next run (.failure message c found, s)) :
    Orderly D P fun run s => p run d.cursor s >>= next run := by
  let rest (o : Outcome) : Routine α := fun run s => next run (o, s)
  refine bind (B := rest) (serves d.cursor allowed.cursor) fun o follows => ?_
  cases o with
  | success v c => exact success v c (allowed.cursor.later follows)
  | failure message c found => exact failure message c found (allowed.cursor.gives follows)

theorem parse {p : Engine → Runner} (serves : Serves D p) {d : Driver} (allowed : d.Allowed D)
    (description : String) {next : Engine → Except Abort Value × Driver × Session → Except Halt (α × Session)}
    (rest : ∀ answer d', d'.Allowed D → Orderly D P fun run s => next run (answer, d', s)) :
    Orderly D P fun run s => d.parse description (p run) s >>= next run := by
  cases failed : d.failure with
  | some failure =>
      simp only [Driver.parse, failed, Option.isSome_some, if_true, ok_bind]
      exact rest (.error {}) d allowed
  | none =>
      simp only [Driver.parse, failed, Option.isSome_none, Bool.false_eq_true, if_false, bind_assoc]
      refine step serves allowed ?_ ?_
      · intro v c later
        exact rest _ _ (allowed.advance later description v)
      · intro message c found gives
        have failing : Driver.Allowed D { d with failure := some ⟨message, c, found⟩ } := allowed.fail gives
        exact .note (·.logged (.stepFailed (d.history.length + 1) description c.index message))
          (rest _ _ failing)

theorem parseOptional {p : Engine → Runner} (serves : Serves D p) {d : Driver} (allowed : d.Allowed D)
    (description : String)
    {next : Engine → Except Abort (Option Value) × Driver × Session → Except Halt (α × Session)}
    (rest : ∀ answer d', d'.Allowed D → Orderly D P fun run s => next run (answer, d', s)) :
    Orderly D P fun run s => d.parseOptional description (p run) s >>= next run := by
  cases failed : d.failure with
  | some failure =>
      simp only [Driver.parseOptional, failed, Option.isSome_some, if_true, ok_bind]
      exact rest (.error {}) d allowed
  | none =>
      simp only [Driver.parseOptional, failed, Option.isSome_none, Bool.false_eq_true, if_false, bind_assoc]
      refine step serves allowed ?_ (fun _ _ _ _ => rest _ _ allowed)
      intro v c later
      exact rest _ _ (allowed.advance later description v)

end Orderly

def partsOf (describe : Expr → String) (parts : List Expr) (run : Engine) : List Part :=
  parts.map fun p => ⟨describe p, run p⟩

theorem partAt_serves (describe : Expr → String) {parts : List Expr} (all : ∀ p ∈ parts, D.parts p) (n : Nat) :
    Serves D (fun run => (partAt (partsOf describe parts run) n).runner) ∧
      ∃ description, ∀ run, (partAt (partsOf describe parts run) n).description = description := by
  simp only [partAt, partsOf, List.getElem?_map]
  cases found : parts[n]? with
  | none =>
      refine ⟨fun c here => ?_, "", fun run => rfl⟩
      obtain ⟨o, failed, follows⟩ := Outcome.failAt_follows "" here.fits
      exact .lift ⟨o, failed, follows⟩
  | some p =>
      exact ⟨fun c here => .run (all p (List.mem_of_getElem? found)) here, describe p, fun run => rfl⟩

theorem pattern_serves (p : Pattern) : Serves D fun _ c s => do return (← (Prim.pattern p).run c, s) := by
  intro c here
  exact .lift ((Prim.pattern p).run_follows here.fits)

namespace Orderly

theorem put (describe : Expr → String) {parts : List Expr} (all : ∀ p ∈ parts, D.parts p) {stage : Stage}
    (allowed : stage.driver.Allowed D) (request : Request)
    {next : Engine → Except Abort Value × Scene → Except Halt (α × Session)}
    (rest : ∀ (answer : Except Abort Value) (stage' : Stage), stage'.driver.Allowed D →
      Orderly D P fun run s => next run (answer, stage'.scene s)) :
    Orderly D P fun run s => request.put (partsOf describe parts run) (stage.scene s) >>= next run := by
  cases request with
  | parse n description =>
      obtain ⟨serves, title, titled⟩ := partAt_serves describe all n
      simp only [Request.put, Scene.withDriver, Stage.scene, titled, bind_assoc]
      exact parse serves allowed _ fun answer d allowed' => rest answer ⟨d, stage.bindings⟩ allowed'
  | optional n =>
      obtain ⟨serves, title, titled⟩ := partAt_serves describe all n
      simp only [Request.put, Scene.withDriver, Stage.scene, titled, bind_assoc]
      exact parseOptional serves allowed _ fun answer d allowed' =>
        rest (answer.map .ofOption) ⟨d, stage.bindings⟩ allowed'
  | fail message =>
      obtain ⟨before, remaining, remains, -, -⟩ := allowed.cursor.fits.remaining
      have previewed : stage.driver.cursor.preview = .ok (Cursor.previewOf remaining) := by
        rw [Cursor.preview, remains]
        rfl
      cases failed : stage.driver.failure with
      | some failure =>
          simp only [Request.put, Stage.scene, Driver.fail, failed]
          exact rest (.error {}) stage allowed
      | none =>
          let d := { stage.driver with
            failure := some ⟨message, stage.driver.cursor, Cursor.previewOf remaining⟩ }
          have failing : d.Allowed D := allowed.fail ⟨allowed.cursor.fits, allowed.cursor.le⟩
          simp only [Request.put, Stage.scene, Driver.fail, failed, previewed]
          exact rest (.error {}) ⟨d, stage.bindings⟩ failing
  | pattern source =>
      cases read : Pattern.ofString? source with
      | some pattern =>
          simp only [Request.put, Scene.withDriver, Stage.scene, Driver.parsePattern_of_some read, bind_assoc]
          exact parse (pattern_serves pattern) allowed _ fun answer d allowed' =>
            rest answer ⟨d, stage.bindings⟩ allowed'
      | none =>
          let reason := (Diagnostic.malformedPattern source).message
          simp only [Request.put, Driver.parsePattern_of_none read]
          exact .note (·.logged (.stepsAborted reason)) (rest (.error ⟨some reason⟩) stage allowed)
  | foreignAbort => exact rest (.error {}) stage allowed

abbrev Plays (D : Discipline) (x : Engine → Session → Except Halt (α × Scene)) : Prop :=
  Orderly D (fun r : α × Stage => r.2.driver.Allowed D) fun run s => Scene.apart (x run s)

theorem continuing {x : Engine → Session → Except Halt (α × Scene)} (first : Plays D x)
    {next : Engine → α × Scene → Except Halt (β × Scene)}
    (rest : ∀ a (stage : Stage), stage.driver.Allowed D → Plays D fun run s => next run (a, stage.scene s)) :
    Plays D fun run s => x run s >>= next run := by
  refine congr (fun run s => ?_) (bind (B := fun r run s => Scene.apart (next run (r.1, r.2.scene s))) first
    fun r allowed => rest r.1 r.2 allowed)
  change Scene.apart (x run s >>= next run) = _
  cases x run s <;> rfl

theorem following {x : Engine → Session → Except Halt (Flow × Scene)} (first : Plays D x)
    {rest : Engine → Scene → Except Halt (Flow × Scene)}
    (goesOn : ∀ stage : Stage, stage.driver.Allowed D → Plays D fun run s => rest run (stage.scene s)) :
    Plays D fun run s => x run s >>= Script.proceed (rest run) := by
  refine continuing first fun flow stage allowed => ?_
  cases flow with
  | next => exact goesOn stage allowed
  | given v => exact .done (a := (Flow.given v, stage)) allowed
  | aborted abort => exact .done (a := (Flow.aborted abort, stage)) allowed

theorem plan (describe : Expr → String) {parts : List Expr} (all : ∀ p ∈ parts, D.parts p) (plan : Plan α)
    (stage : Stage) (allowed : stage.driver.Allowed D) :
    Plays D fun run s => plan.play (partsOf describe parts run) (stage.scene s) := by
  induction plan generalizing stage with
  | ends a bindings => exact .done (a := (a, Stage.mk stage.driver bindings)) allowed
  | ask request next ih =>
      simp only [Plays, Plan.play, Scene.apart_bind]
      exact put describe all allowed request fun answer stage' later =>
        ih answer stage'.outlook stage' later
  | note event next ih =>
      exact .note (·.traced (event stage.driver.cursor.index stage.driver.history.length)) (ih stage allowed)

theorem loop {head : Engine → Scene → Except Halt (Option Flow × Scene)}
    {body : Engine → Scene → Except Halt (Flow × Scene)}
    (first : ∀ stage : Stage, stage.driver.Allowed D → Plays D fun run s => head run (stage.scene s))
    (round : ∀ stage : Stage, stage.driver.Allowed D → Plays D fun run s => body run (stage.scene s))
    (lossy : ¬D.strict) (fuel : Nat) (stage : Stage) (allowed : stage.driver.Allowed D) :
    Plays D fun run s => Script.runLoop (head run) (body run) fuel (stage.scene s) := by
  induction fuel generalizing stage with
  | zero => exact .exhausted lossy
  | succ fuel ih =>
      simp only [Script.runLoop_succ]
      refine continuing (first stage allowed) fun ended stage' later => ?_
      cases ended with
      | some flow => exact .done (a := (flow, stage')) later
      | none => exact following (round stage' later) ih

theorem block (describe : Expr → String) {parts : List Expr} (all : ∀ p ∈ parts, D.parts p) (fuel : Nat)
    (script : List Stmt) (enough : D.strict → Script.isLoopFree script ∧ Script.size script < fuel) (stage : Stage)
    (allowed : stage.driver.Allowed D) :
    Plays D fun run s => Script.runBlock (partsOf describe parts run) fuel script (stage.scene s) := by
  induction fuel generalizing script stage with
  | zero => exact .exhausted fun strict => Nat.not_lt_zero _ (enough strict).2
  | succ fuel ih =>
      cases script with
      | nil => exact .done (a := (Flow.next, stage)) allowed
      | cons stmt rest =>
          have shorter : D.strict → Script.isLoopFree rest ∧ Script.size rest < fuel := by
            intro strict
            obtain ⟨free, size⟩ := enough strict
            simp only [Script.isLoopFree, Bool.and_eq_true] at free
            simp only [Script.size] at size
            exact ⟨free.2, by omega⟩
          simp only [Script.runBlock_cons]
          refine following ?_ (ih rest shorter)
          · cases stmt with
            | follow choose => exact plan describe all (choose stage.outlook) stage allowed
            | rounds head body =>
                have lossy : ¬D.strict := by
                  intro strict
                  have free := (enough strict).1
                  simp [Script.isLoopFree, Stmt.isLoopFree] at free
                exact loop (fun stage => plan describe all (head stage.outlook) stage)
                  (ih body fun strict => absurd strict lossy) lossy fuel stage allowed
            | branch of test yes no =>
                obtain ⟨v, evaluated⟩ := Scene.eval_defined allowed.cursor.fits of
                have chosen : D.strict → Script.isLoopFree (if test v then yes else no) ∧
                    Script.size (if test v then yes else no) < fuel := by
                  intro strict
                  obtain ⟨free, size⟩ := enough strict
                  simp only [Script.isLoopFree, Stmt.isLoopFree, Bool.and_eq_true] at free
                  simp only [Script.size, Stmt.size] at size
                  cases test v with
                  | true => exact ⟨free.1.1, by simp only [if_true]; omega⟩
                  | false => exact ⟨free.1.2, by simp only [Bool.false_eq_true, if_false]; omega⟩
                simp only [Script.runStmt, evaluated, ok_bind]
                exact ih _ chosen stage allowed
            | assign bind of =>
                obtain ⟨v, evaluated⟩ := Scene.eval_defined allowed.cursor.fits of
                simp only [Script.runStmt, evaluated, ok_bind]
                exact .done (a := (Flow.next, Stage.mk stage.driver ((bind, v) :: stage.bindings))) allowed
            | note of =>
                obtain ⟨v, evaluated⟩ := Scene.eval_defined allowed.cursor.fits of
                simp only [Script.runStmt, evaluated, ok_bind]
                exact .note (·.traced (.note v stage.driver.cursor.index stage.driver.history.length))
                  (.done (a := (Flow.next, stage)) allowed)
            | give of =>
                obtain ⟨v, evaluated⟩ := Scene.eval_defined allowed.cursor.fits of
                simp only [Script.runStmt, evaluated, ok_bind]
                exact .done (a := (Flow.given v, stage)) allowed

theorem script (describe : Expr → String) {parts : List Expr} (all : ∀ p ∈ parts, D.parts p) (fuel : Nat)
    (script : List Stmt) (enough : D.strict → Script.isLoopFree script ∧ Script.size script < fuel) {c : Cursor}
    (here : D.Allows c) :
    Orderly D D.Gives fun run => Script.run fuel (partsOf describe parts run) script c := by
  let stage : Stage := ⟨.start c, []⟩
  refine congr (fun run s => ?_) (bind (B := fun r _ s => do return (← r.2.driver.finish r.1.answer, s))
    (block describe all fuel script enough stage here.driver) fun r allowed => lift (allowed.finish _))
  simp only [Script.run]
  change Script.runBlock _ _ _ (stage.scene s) >>= _ = _
  cases Script.runBlock (partsOf describe parts run) fuel script (stage.scene s) with
  | error halt => rfl
  | ok r =>
      obtain ⟨flow, scene⟩ := r
      cases flow <;> rfl

end Orderly
end Routine
end ParseEngine
