import ParseEngine.Grammar.Run
import ParseEngine.Proofs.Boundary

/-!
What an expression does between the runs of its parts.

A routine is given an engine that runs expressions. An orderly one uses the session only by handing it to the
engine and by writing to the journal: it asks for runs of the parts it may use, at cursors that do not lie
before its start, and each further step depends on nothing but the outcomes it was given. The combinators of
runners are orderly.
-/

namespace ParseEngine

abbrev Engine := Expr → Runner

abbrev Routine (α : Type) := Engine → Session → Except Halt (α × Session)

def Session.annotate (s : Session) (f : Journal → Journal) : Session :=
  { s with journal := f s.journal }

/-- Where a routine runs, from which index on, and which expressions it may run. A strict one never stops for
want of fuel. -/
structure Discipline where
  setting : Setting
  start : Nat
  parts : Expr → Prop
  strict : Prop

namespace Discipline

structure Allows (D : Discipline) (c : Cursor) : Prop where
  fits : c.Fits D.setting
  le : D.start ≤ c.index

abbrev Gives (D : Discipline) (o : Outcome) : Prop :=
  o.Follows D.setting D.start

variable {D : Discipline} {c : Cursor} {o : Outcome}

theorem Allows.gives (here : D.Allows c) (follows : o.Follows D.setting c.index) : D.Gives o :=
  follows.mono here.le

theorem Allows.success (here : D.Allows c) (v : Value) : D.Gives (.success v c) :=
  ⟨here.fits, here.le⟩

theorem Allows.later (here : D.Allows c) (follows : o.Follows D.setting c.index) : D.Allows o.cursor :=
  ⟨follows.fits, Nat.le_trans here.le follows.le⟩

end Discipline

namespace Failure

theorem furthest?_gives {failures : List Failure} {failure : Failure} {D : Discipline}
    (all : ∀ f ∈ failures, D.Gives f.toOutcome) (furthest : furthest? failures = some failure) :
    D.Gives failure.toOutcome := by
  obtain ⟨first, head, rfl⟩ := Option.map_eq_some_iff.1 furthest
  have member := (List.mem_filter.1 (List.mem_of_mem_head? head)).1
  have gives := all first member
  exact ⟨gives.fits, gives.le⟩

end Failure

namespace Routine

inductive Orderly (D : Discipline) {α : Type} (Result : α → Prop) : Routine α → Prop
  | done {a : α} (result : Result a) : Orderly D Result fun _ s => .ok (a, s)
  | exhausted (lossy : ¬D.strict) : Orderly D Result fun _ _ => .error .outOfFuel
  | note (f : Journal → Journal) {R : Routine α} (rest : Orderly D Result R) :
      Orderly D Result fun run s => R run (s.annotate f)
  | ask {e : Expr} {c : Cursor} {next : Outcome → Routine α} (part : D.parts e) (here : D.Allows c)
      (rest : ∀ o, o.Follows D.setting c.index → Orderly D Result (next o)) :
      Orderly D Result fun run s => run e c s >>= fun r => next r.1 run r.2

variable {D : Discipline} {α β : Type} {P : α → Prop} {Q : β → Prop} {c : Cursor}

namespace Orderly

theorem congr {R R' : Routine α} (same : ∀ run s, R run s = R' run s) (orderly : Orderly D P R') :
    Orderly D P R := by
  rwa [show R = R' from funext fun run => funext fun s => same run s]

theorem run {e : Expr} (part : D.parts e) (here : D.Allows c) :
    Orderly D (fun o => o.Follows D.setting c.index) fun run => run e c := by
  refine congr (fun run s => ?_) (.ask part here fun o follows => .done follows)
  cases run e c s <;> rfl

theorem bind {A : Routine α} {B : α → Routine β} (first : Orderly D P A)
    (second : ∀ a, P a → Orderly D Q (B a)) :
    Orderly D Q fun run s => A run s >>= fun r => B r.1 run r.2 := by
  induction first with
  | done result => exact second _ result
  | exhausted lossy => exact .exhausted lossy
  | note f _ ih => exact .note f ih
  | ask part here _ ih =>
      refine congr (fun run s => ?_) (.ask part here ih)
      simp only [bind_assoc]

theorem weaken {P' : α → Prop} {R : Routine α} (orderly : Orderly D P R) (imp : ∀ a, P a → P' a) :
    Orderly D P' R := by
  induction orderly with
  | done result => exact .done (imp _ result)
  | exhausted lossy => exact .exhausted lossy
  | note f _ ih => exact .note f ih
  | ask part here _ ih => exact .ask part here ih

theorem keeps {R : Routine α} (orderly : Orderly D P R) {run : Engine} {I : Session → Prop}
    (noted : ∀ s f, I s → I (s.annotate f))
    (parts : ∀ e c s o t, D.parts e → D.Allows c → I s → run e c s = .ok (o, t) →
      o.Follows D.setting c.index ∧ I t) {s t : Session} (holds : I s) {a : α} (ran : R run s = .ok (a, t)) :
    P a ∧ I t := by
  induction orderly generalizing s with
  | done result =>
      cases ran
      exact ⟨result, holds⟩
  | exhausted lossy => cases ran
  | note f _ ih => exact ih (noted s f holds) ran
  | ask part here _ ih =>
      obtain ⟨⟨o, u⟩, ran, ran'⟩ := bind_eq_ok.1 ran
      obtain ⟨follows, holds'⟩ := parts _ _ _ _ _ part here holds ran
      exact ih o follows holds' ran'

/-- Two engines that agree on the parts agree on the routine, from sessions that are alike in some way `A`, unless
the second session is spoilt in some way `B` that no part undoes. -/
theorem agrees {R : Routine α} (orderly : Orderly D P R) {run run' : Engine} {A : Session → Session → Prop}
    {B : Session → Prop} (noted : ∀ s t f, A s t → A (s.annotate f) (t.annotate f))
    (noted' : ∀ t f, B t → B (t.annotate f))
    (parts : ∀ e c s t o s' o' t', D.parts e → D.Allows c → A s t → run e c s = .ok (o, s') →
      run' e c t = .ok (o', t') → o'.Follows D.setting c.index ∧ (B t' ∨ o = o' ∧ A s' t'))
    (spoilt : ∀ e c t o t', D.parts e → D.Allows c → B t → run' e c t = .ok (o, t') →
      o.Follows D.setting c.index ∧ B t')
    {s s' t t' : Session} (alike : A s t) {a a' : α} (ran : R run s = .ok (a, s'))
    (ran' : R run' t = .ok (a', t')) : B t' ∨ a = a' ∧ A s' t' := by
  induction orderly generalizing s t with
  | done result =>
      cases ran
      cases ran'
      exact .inr ⟨rfl, alike⟩
  | exhausted lossy => cases ran
  | note f _ ih => exact ih (noted s t f alike) ran ran'
  | ask part here rest ih =>
      obtain ⟨⟨o, u⟩, ran, goesOn⟩ := bind_eq_ok.1 ran
      obtain ⟨⟨o', v⟩, ran', goesOn'⟩ := bind_eq_ok.1 ran'
      obtain ⟨follows, spoils | ⟨rfl, alike'⟩⟩ := parts _ _ _ _ _ _ _ _ part here alike ran ran'
      · exact .inl ((rest o' follows).keeps noted' spoilt spoils goesOn').2
      · exact ih o follows alike' goesOn goesOn'

theorem lift {x : Except Halt α} (defined : ∃ a, x = .ok a ∧ P a) :
    Orderly D P fun _ s => do return (← x, s) := by
  obtain ⟨a, rfl, result⟩ := defined
  exact .done result

theorem ask_cases {e : Expr} {next : Engine → Outcome × Session → Except Halt (α × Session)} (part : D.parts e)
    (here : D.Allows c)
    (success : ∀ v d, (Outcome.success v d).Follows D.setting c.index →
      Orderly D P fun run s => next run (.success v d, s))
    (failure : ∀ message d found, (Outcome.failure message d found).Follows D.setting c.index →
      Orderly D P fun run s => next run (.failure message d found, s)) :
    Orderly D P fun run s => run e c s >>= next run := by
  let rest (o : Outcome) : Routine α := fun run s => next run (o, s)
  refine bind (B := rest) (Orderly.run part here) fun o follows => ?_
  cases o with
  | success v d => exact success v d follows
  | failure message d found => exact failure message d found follows

theorem yield (v : Value) (here : D.Allows c) : Orderly D D.Gives fun _ => Runner.yield v c :=
  .done (here.success v)

theorem failHere (message : String) (here : D.Allows c) :
    Orderly D D.Gives fun _ => Runner.failHere message c := by
  obtain ⟨o, failed, follows⟩ := Outcome.failAt_follows message here.fits
  exact lift ⟨o, failed, here.gives follows⟩

theorem andThen {p : Expr} (part : D.parts p) (here : D.Allows c) {next : Value → Cursor → Routine Outcome}
    (rest : ∀ v d, D.Allows d → c.index ≤ d.index → Orderly D D.Gives (next v d)) :
    Orderly D D.Gives fun run => (run p).andThen (fun v d => next v d run) c :=
  ask_cases part here (fun v d follows => rest v d (here.later follows) follows.le)
    fun _ _ _ follows => .done (here.gives follows)

theorem mapValue {p : Expr} (part : D.parts p) (here : D.Allows c) (f : Value → Value) :
    Orderly D D.Gives fun run => (run p).mapValue f c :=
  bind (B := fun o _ s => .ok (o.map f, s)) (Orderly.run part here) fun _ follows =>
    .done ((here.gives follows).map f)

theorem pair {p q : Expr} (first : D.parts p) (second : D.parts q) (here : D.Allows c) :
    Orderly D D.Gives fun run => Runner.pair (run p) (run q) c :=
  andThen first here fun v _ later _ => mapValue second later (.pair v)

theorem orElse {p q : Expr} (first : D.parts p) (second : D.parts q) (here : D.Allows c) :
    Orderly D D.Gives fun run => (run p).orElse (run q) c := by
  refine ask_cases first here ?_ ?_
  · intro v d follows
    exact .done (here.gives follows)
  · intro message d found follows
    by_cases same : d.index = c.index
    · simp only [if_pos same]
      exact (Orderly.run second here).weaken fun _ follows => here.gives follows
    · simp only [if_neg same]
      exact .done (here.gives follows)

theorem adapt {p : Expr} (part : D.parts p) (here : D.Allows c) (adapter : Adapter) :
    Orderly D D.Gives fun run => Runner.adapt adapter (run p) c := by
  refine bind (B := fun o _ s => do return (← adapter.apply c o, s)) (Orderly.run part here) fun o follows => ?_
  obtain ⟨o', applied, follows'⟩ := adapter.apply_follows here.fits follows
  exact lift ⟨o', applied, here.gives follows'⟩

theorem detached {p : Expr} (part : D.parts p) (here : D.Allows c) :
    Orderly D D.Gives fun run => Runner.detached (run p) c := by
  have bare : D.Allows { c with context := none } := ⟨here.fits.dropContext, here.le⟩
  refine bind (B := fun o _ s => .ok (o.withCursor { o.cursor with context := c.context }, s))
    (Orderly.run part bare) fun o follows => .done ?_
  have fits := here.fits.restoreContext follows.fits
  have le := Nat.le_trans here.le follows.le
  cases o <;> exact ⟨fits, le⟩

theorem sequence {es : List Expr} (parts : ∀ e ∈ es, D.parts e) (collected : List Value)
    (here : D.Allows c) : Orderly D D.Gives fun run => Runner.sequenceFrom (es.map run) collected c := by
  induction es generalizing collected c with
  | nil => exact yield _ here
  | cons e es ih =>
      exact andThen (parts e (List.mem_cons_self ..)) here fun v _ later _ =>
        ih (fun p member => parts p (List.mem_cons_of_mem _ member)) (v :: collected) later

theorem count {p : Expr} (part : D.parts p) (n : Nat) (collected : List Value) (here : D.Allows c) :
    Orderly D D.Gives fun run => Runner.countFrom (run p) n collected c := by
  induction n generalizing collected c with
  | zero => exact yield _ here
  | succ n ih => exact andThen part here fun v _ later _ => ih (v :: collected) later

theorem choice {es : List Expr} (parts : ∀ e ∈ es, D.parts e) {failed : List Failure}
    (earlier : ∀ failure ∈ failed, D.Gives failure.toOutcome) (here : D.Allows c) :
    Orderly D D.Gives fun run => Runner.choiceFrom (es.map run) failed c := by
  induction es generalizing failed with
  | nil =>
      simp only [List.map_nil, Runner.choiceFrom]
      cases furthest : Failure.furthest? failed.reverse with
      | none => exact failHere _ here
      | some failure =>
          have gives := Failure.furthest?_gives (fun f member => earlier f (List.mem_reverse.1 member)) furthest
          exact .done gives
  | cons e es ih =>
      refine ask_cases (parts e (List.mem_cons_self ..)) here (fun _ _ follows => .done (here.gives follows)) ?_
      intro message d found follows
      refine ih (fun p member => parts p (List.mem_cons_of_mem _ member)) ?_
      intro failure member
      rcases List.mem_cons.1 member with rfl | member
      · exact here.gives follows
      · exact earlier failure member

theorem many {p : Expr} (part : D.parts p) (required : Bool) (fuel : Nat) (collected : List Value)
    (here : D.Allows c) (enough : D.strict → Text.byteLength D.setting.text - c.index < fuel) :
    Orderly D D.Gives fun run => Runner.manyFrom required (run p) fuel collected c := by
  induction fuel generalizing collected c with
  | zero => exact .exhausted fun strict => Nat.not_lt_zero _ (enough strict)
  | succ fuel ih =>
      refine ask_cases part here ?_ ?_
      · intro v d follows
        by_cases same : d.index = c.index
        · simp only [if_pos same]
          exact failHere _ here
        · simp only [if_neg same]
          refine ih _ (here.later follows) fun strict => ?_
          have le : c.index ≤ d.index := follows.le
          have bound : d.index ≤ _ := Cursor.Fits.index_le follows.fits
          have := enough strict
          change Text.byteLength D.setting.text - d.index < fuel
          omega
      · intro message d found follows
        by_cases first : (required && collected.isEmpty) = true
        · simp only [if_pos first]
          exact .done (here.gives follows)
        · simp only [if_neg first]
          exact yield _ here

theorem separated {item separator : Expr} (part : D.parts item) (between : D.parts separator) (fuel : Nat)
    (collected : List Value) (here : D.Allows c)
    (enough : D.strict → Text.byteLength D.setting.text - c.index < fuel) :
    Orderly D D.Gives fun run => Runner.separatedFrom (run item) (run separator) fuel collected c := by
  induction fuel generalizing collected c with
  | zero => exact .exhausted fun strict => Nat.not_lt_zero _ (enough strict)
  | succ fuel ih =>
      refine ask_cases between here ?_ (fun _ _ _ _ => yield _ here)
      intro v d follows
      refine ask_cases part (here.later follows) ?_ (fun _ _ _ _ => yield _ here)
      intro w e follows'
      by_cases same : e.index = c.index
      · simp only [if_pos same]
        exact failHere _ here
      · simp only [if_neg same]
        refine ih _ ((here.later follows).later follows') fun strict => ?_
        have le : c.index ≤ d.index := follows.le
        have le' : d.index ≤ e.index := follows'.le
        have bound : e.index ≤ _ := Cursor.Fits.index_le follows'.fits
        have := enough strict
        change Text.byteLength D.setting.text - e.index < fuel
        omega

theorem sepBy {item separator : Expr} (part : D.parts item) (between : D.parts separator) (required : Bool)
    (fuel : Nat) (here : D.Allows c)
    (enough : D.strict → Text.byteLength D.setting.text - c.index < fuel) :
    Orderly D D.Gives fun run => Runner.sepBy required fuel (run item) (run separator) c := by
  refine ask_cases part here ?_ ?_
  · intro v d follows
    refine separated part between fuel _ (here.later follows) fun strict => ?_
    have le : c.index ≤ d.index := follows.le
    exact Nat.lt_of_le_of_lt (Nat.sub_le_sub_left le _) (enough strict)
  · intro message d found follows
    cases required with
    | true => exact .done (here.gives follows)
    | false => exact yield _ here

theorem foldLeft {term op : Expr} (part : D.parts term) (between : D.parts op)
    (f : Value → Value → Value → Value) (fuel : Nat) (lossy : ¬D.strict) (here : D.Allows c) :
    Orderly D D.Gives fun run => Runner.foldLeft fuel (run term) (run op) f c := by
  have rounds (fuel : Nat) (acc : Value) (d : Cursor) (later : D.Allows d) :
      Orderly D D.Gives fun run => Runner.foldFrom (run term) (run op) f fuel acc d := by
    induction fuel generalizing acc d with
    | zero => exact .exhausted lossy
    | succ fuel ih =>
        refine ask_cases between later ?_ (fun _ _ _ _ => yield _ later)
        intro o e follows
        exact andThen part (later.later follows) fun b e' later' _ => ih (f acc o b) e' later'
  exact andThen part here fun a d later _ => rounds fuel a d later

end Orderly

end Routine
end ParseEngine
