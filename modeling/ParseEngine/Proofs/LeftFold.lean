import ParseEngine.Proofs.Termination
import ParseEngine.Proofs.Transparency
import ParseEngine.Value.Transform

/-!
Direct left recursion is the left fold: a rule that is an operand, or itself followed by an operator and an
operand, does what a loop does that folds one operator and operand after the other onto the first operand.

The loop runs with no rule in flight. The rule, once memoization is left out, runs its operands and operators in
the same order, but with itself in flight below them. As they do not refer to the rule, they do the same. What
the rule runs beside that is the operand from the start, again, when nothing was consumed; that operand is
settled.
-/

namespace ParseEngine

namespace Runner

/-- Rounds of an operator and a term, folded onto the value so far. They end where one of them fails, where a
round does not get further, and after as many rounds as the bound tells. -/
def foldRounds (term op : Runner) (f : Value → Value → Value → Value) : Nat → Option Nat → Value → Runner
  | 0, _, _ => exhausted
  | fuel + 1, bound, acc => fun c s =>
      if bound = some 0 then yield acc c s
      else do
        match ← op c s with
        | (.failure .., s) => yield acc c s
        | (.success o d, s) =>
            match ← term d s with
            | (.failure .., s) => yield acc c s
            | (.success b e, s) =>
                if e.index ≤ c.index then yield acc c s
                else foldRounds term op f fuel (bound.map (· - 1)) (f acc o b) e s

def leftFold (fuel : Nat) (bound : Option Nat) (term op : Runner) (f : Value → Value → Value → Value) : Runner :=
  term.andThen fun a => foldRounds term op f fuel bound a

section Below
variable {term term' op op' : Runner} (part : term.Below term') (between : op.Below op')
  (f : Value → Value → Value → Value) {fuel fuel' : Nat} (le : fuel ≤ fuel')
include part between le

theorem foldRounds_below (bound : Option Nat) (acc : Value) :
    (foldRounds term op f fuel bound acc).Below (foldRounds term' op' f fuel' bound acc) := by
  induction fuel generalizing fuel' bound acc with
  | zero => exact fun c s => .exhausted _
  | succ fuel ih =>
      obtain ⟨more, rfl⟩ := Nat.exists_eq_add_of_le' le
      intro c s
      simp only [foldRounds]
      split
      · exact .refl _
      · refine (between c s).bind fun r => ?_
        obtain ⟨o, s⟩ := r
        cases o with
        | failure message d found => exact .refl _
        | success o d =>
            refine (part d s).bind fun r => ?_
            obtain ⟨b, s⟩ := r
            cases b with
            | failure message e found => exact .refl _
            | success b e =>
                dsimp only
                split
                · exact .refl _
                · exact ih (Nat.le_add_left fuel more) _ _ e s

theorem leftFold_below (bound : Option Nat) :
    (leftFold fuel bound term op f).Below (leftFold fuel' bound term' op' f) :=
  andThen_below part fun a => foldRounds_below part between f le bound a

end Below

theorem foldRounds_ends {term op : Runner} {f : Value → Value → Value → Value} {fuel : Nat} {acc : Value}
    {c : Cursor} {s : Session} {r : Outcome × Session} (ran : foldRounds term op f fuel (some 0) acc c s = .ok r) :
    r = (.success acc c, s) := by
  cases fuel with
  | zero => cases ran
  | succ fuel =>
      simp only [foldRounds, if_true] at ran
      exact (Except.ok.inj ran).symm

/-- The rounds that a fold may still take are the passes that the growth may still take. Without a bound, the
growth may take more passes than the text has bytes. -/
def Keeps (size start cap grown : Nat) (bound : Option Nat) : Prop :=
  bound = none ∧ size < start + cap ∨ bound = some (cap - grown)

namespace Keeps
variable {size start cap grown : Nat} {bound : Option Nat} (keeps : Keeps size start cap grown bound)
include keeps

theorem unbounded (short : grown < cap) : bound ≠ some 0 := by
  rcases keeps with ⟨rfl, -⟩ | rfl
  · simp
  · simp only [ne_eq, Option.some.injEq]
    omega

theorem next : Keeps size start cap (grown + 1) (bound.map (· - 1)) := by
  rcases keeps with ⟨rfl, room⟩ | rfl
  · exact .inl ⟨rfl, room⟩
  · exact .inr rfl

-- only a bound of its own can stop the growth before the end of the text
theorem last {stop : Nat} (reached : cap ≤ grown) (ahead : start + grown ≤ stop) (inside : stop ≤ size) :
    bound = some 0 := by
  rcases keeps with ⟨-, room⟩ | rfl
  · omega
  · rw [Nat.sub_eq_zero_of_le reached]

end Keeps

theorem keeps_growthCap {st : Setting} {c : Cursor} {rest : List Char} (fits : c.Fits st)
    (remains : c.remaining = .ok rest) (options : Options) :
    Keeps (Text.byteLength st.text) c.index (growthCap options rest) 0 options.growthBound := by
  cases bound : options.growthBound with
  | some n => exact .inr (by simp [growthCap, bound])
  | none =>
      obtain ⟨before, rest', remains', split, size⟩ := fits.remaining
      rw [remains] at remains'
      cases remains'
      refine .inl ⟨rfl, ?_⟩
      simp only [split, Text.byteLength_append, size, growthCap, bound, Option.getD_none]
      omega

end Runner

theorem Grammar.leftFold_unique {g : Grammar} {term op : Expr} {f : Value → Value → Value → Value}
    {bound : Option Nat} {rounds rounds' fuel fuel' : Nat} {c : Cursor} {s : Session} {r r' : Outcome × Session}
    (ran : Runner.leftFold rounds bound (g.run fuel term) (g.run fuel op) f c s = .ok r)
    (ran' : Runner.leftFold rounds' bound (g.run fuel' term) (g.run fuel' op) f c s = .ok r') : r = r' := by
  have more := g.run_below (Nat.le_max_left fuel fuel')
  have more' := g.run_below (Nat.le_max_right fuel fuel')
  have first := Runner.leftFold_below (more term) (more op) f (Nat.le_max_left rounds rounds') bound c s r ran
  rw [Runner.leftFold_below (more' term) (more' op) f (Nat.le_max_right rounds rounds') bound c s r' ran'] at first
  exact (Except.ok.inj first).symm

namespace Routine.Orderly
variable {D : Discipline} {c : Cursor} {term op : Expr}

theorem foldRounds (part : D.parts term) (between : D.parts op) (f : Value → Value → Value → Value) (fuel : Nat)
    (bound : Option Nat) (acc : Value) (here : D.Allows c)
    (enough : D.strict → Text.byteLength D.setting.text - c.index < fuel) :
    Orderly D D.Gives fun run => Runner.foldRounds (run term) (run op) f fuel bound acc c := by
  induction fuel generalizing bound acc c with
  | zero => exact .exhausted fun strict => Nat.not_lt_zero _ (enough strict)
  | succ fuel ih =>
      by_cases done : bound = some 0
      · refine congr (fun run s => ?_) (yield acc here)
        simp only [Runner.foldRounds, if_pos done]
      · simp only [Runner.foldRounds, if_neg done]
        refine ask_cases between here ?_ (fun _ _ _ _ => yield _ here)
        intro o d follows
        refine ask_cases part (here.later follows) ?_ (fun _ _ _ _ => yield _ here)
        intro b e follows'
        by_cases stuck : e.index ≤ c.index
        · simp only [if_pos stuck]
          exact yield _ here
        · simp only [if_neg stuck]
          refine ih _ _ ((here.later follows).later follows') fun strict => ?_
          have bound : e.index ≤ _ := Cursor.Fits.index_le follows'.fits
          have := enough strict
          change Text.byteLength D.setting.text - e.index < fuel
          omega

theorem leftFold (part : D.parts term) (between : D.parts op) (f : Value → Value → Value → Value) {fuel : Nat}
    (bound : Option Nat) (here : D.Allows c) (enough : D.strict → Text.byteLength D.setting.text < fuel) :
    Orderly D D.Gives fun run => Runner.leftFold fuel bound (run term) (run op) f c :=
  andThen part here fun a _ later _ => foldRounds part between f fuel bound a later fun strict =>
    Nat.lt_of_le_of_lt (Nat.sub_le _ _) (enough strict)

end Routine.Orderly

def Value.applyNested (f : Value → Value → Value → Value) : Value → Value
  | .pair (.pair a o) b => f a o b
  | v => v

namespace Expr

def folding (r : Nat) (term op : Expr) (f : Value → Value → Value → Value) : Expr :=
  .adapt (.map (Value.applyNested f)) (.pair (.pair (.adapt .forward (.rule r)) op) term)

def leftFold (r : Nat) (term op : Expr) (f : Value → Value → Value → Value) : Expr :=
  .orElse (folding r term op f) term

end Expr

namespace Grammar
variable {g : Grammar} {st : Setting} {r : Nat} {term op e : Expr} {c d : Cursor} {s s' base v w : Session}
  {growth : Growth} {o pass : Outcome}

def beneath (g : Grammar) (st : Setting) (r : Nat) : Pairing where
  left := g
  right := g
  setting := st
  own id := g.Grows id ∧ id ≠ .rule r
  extra memo memo' := ∀ index, memo.lookup ⟨.rule r, index⟩ = none ∧ memo'.lookup ⟨.rule r, index⟩ = none

def Foreign (g : Grammar) (r : Nat) (e : Expr) : Prop :=
  g.InterceptFree e ∧ ¬g.Uses e (.rule r)

theorem beneath_lawful (memoFree : g.MemoFree) (plain : st.plain) (closed : st.closed) :
    (g.beneath st r).Lawful (g.Foreign r) fun _ => False where
  plain := plain
  closed := closed
  part foreign part := ⟨foreign.1.part part, fun uses => foreign.2 (.part part uses)⟩
  body foreign found := ⟨foreign.1.body found, fun uses => foreign.2 (.body found uses)⟩
  freeLeft foreign := foreign.1
  freeRight foreign := foreign.1
  description := rfl
  rule := by
    intro r' foreign
    refine .inr ⟨rfl, fun rule found => ?_⟩
    cases mode : rule.mode with
    | plain => exact .inl rfl
    | memo => exact absurd mode (memoFree r' rule found)
    | leftRecursive =>
        refine .inr ⟨rfl, ⟨r', rule, rfl, found, mode⟩, fun same => foreign.2 ?_⟩
        cases same
        exact .self _
  extend := by
    intro memo memo' key entry empty mine _ _ index
    have differs : (⟨.rule r, index⟩ : Key) ≠ key := by
      rintro rfl
      exact mine.2 rfl
    rw [List.lookup_cons, List.lookup_cons, beq_eq_false_iff_ne.2 differs]
    exact empty index

theorem beneath_simulates (memoFree : g.MemoFree) (plain : st.plain) (closed : st.closed) (foreign : g.Foreign r e)
    (fuel : Nat) : (g.beneath st r).Simulates fuel e :=
  Pairing.simulates (beneath_lawful memoFree plain closed) (fun _ _ none => none.elim) fuel e foreign

structure InFlight (g : Grammar) (st : Setting) (r : Nat) (c : Cursor) (base s v : Session) (growth : Growth) :
    Prop where
  related : ∃ b : View, b.depth = 1 ∧ (g.beneath st r).Related {} b s v
  above : base.Above ⟨.rule r, c.index⟩ v
  top : v.growing = (⟨.rule r, c.index⟩, growth) :: base.growing
  bottom : base.growing = []

namespace InFlight
variable (inFlight : g.InFlight st r c base s v growth)
include inFlight

theorem sound : v.Sound g st := by
  obtain ⟨b, -, related⟩ := inFlight.related
  exact related.right

theorem beside : s.Sound g st := by
  obtain ⟨b, -, related⟩ := inFlight.related
  exact related.left

theorem lookup : v.growing.lookup ⟨.rule r, c.index⟩ = some growth := by
  rw [inFlight.top, List.lookup_cons_self]

theorem idle : base.growing.lookup ⟨.rule r, c.index⟩ = none := by
  rw [inFlight.bottom]
  rfl

theorem step {growth' : Growth} (passes reentries : Nat) (sound : w.Sound g st) (options : w.options = v.options)
    (memo : w.memo = v.memo) (top : w.growing = (⟨.rule r, c.index⟩, growth') :: base.growing)
    (read : w.shallowestRead = v.shallowestRead ∨ w.shallowestRead = some 0)
    (passed : w.passes = v.passes + passes) (reread : w.reentries = v.reentries + reentries) :
    g.InFlight st r c base s w growth' := by
  obtain ⟨b, depth, related⟩ := inFlight.related
  have above := inFlight.above
  refine ⟨?_, ⟨options.trans above.options, ⟨growth', top⟩, memo ▸ above.memo⟩, top, inFlight.bottom⟩
  have agree := related.agree
  let b' : View :=
    { b with
      read := if w.shallowestRead = some 0 then some 0 else b.read
      passes := b.passes + passes
      reentries := b.reentries + reentries }
  refine ⟨b', depth, related.left, sound, ⟨?_, fun key mine => ?_, ?_, fun key mine => ?_, ?_, ?_, ?_⟩, ?_⟩
  · rw [options, agree.options]
  · have differs : key ≠ ⟨.rule r, c.index⟩ := by
      rintro rfl
      exact mine.2 rfl
    obtain ⟨found, left, right⟩ := agree.growing key mine
    refine ⟨found, left, ?_⟩
    rw [inFlight.top, List.lookup_cons, beq_eq_false_iff_ne.2 differs] at right
    rw [top, List.lookup_cons, beq_eq_false_iff_ne.2 differs]
    exact right
  · obtain ⟨height, left, right⟩ := agree.height
    refine ⟨height, left, ?_⟩
    rw [← right, top, inFlight.top]
    rfl
  · rw [memo]
    exact agree.memo key mine
  · obtain ⟨x, left, right⟩ := agree.read
    refine ⟨x, left, ?_⟩
    by_cases zero : w.shallowestRead = some 0
    · simp only [b', zero]
      cases x <;> simp [Session.shallower]
    · simp only [b', if_neg zero]
      rcases read with same | zero'
      · rw [same, right]
      · exact absurd zero' zero
  · have counted : s.passes + b.passes = v.passes := agree.passes
    change s.passes + (b.passes + passes) = w.passes
    omega
  · have counted : s.reentries + b.reentries = v.reentries := agree.reentries
    change s.reentries + (b.reentries + reentries) = w.reentries
    omega
  · rw [memo]
    exact related.extra

theorem counted : g.InFlight st r c base s v.counted growth :=
  inFlight.step 1 0 (inFlight.sound.congr rfl rfl) rfl rfl inFlight.top (.inl rfl) rfl rfl

theorem reread : g.InFlight st r c base s (v.reread growth) growth := by
  have inside := (inFlight.sound.growing _ growth inFlight.lookup).depth
  rw [inFlight.top, inFlight.bottom] at inside
  have depth : growth.depth = 0 := Nat.lt_one_iff.1 inside
  -- nothing else is in flight, so that no read is shallower than that of the seed
  refine inFlight.step 0 1 (inFlight.sound.congr rfl rfl) rfl rfl inFlight.top (.inr ?_) rfl rfl
  rw [Session.reread, depth]
  cases v.shallowestRead <;> simp [Session.shallower]

theorem grow (note : Journal → Journal) (follows : o.Follows st c.index) :
    g.InFlight st r c base s ((v.annotate note).grow ⟨.rule r, c.index⟩ o)
      { growth with seed := o, phase := .growing } := by
  have noted : (v.annotate note).Sound g st := (Session.Alike.annotate v note).sound inFlight.sound
  have grown := noted.grow inFlight.top inFlight.idle follows
  exact inFlight.step 0 0 grown rfl rfl (Session.grow_growing inFlight.top inFlight.idle) (.inl rfl) rfl rfl

theorem run (memoFree : g.MemoFree) (plain : st.plain) (closed : st.closed) (foreign : g.Foreign r e)
    (fits : d.Fits st) (ran : g.Evaluates e d s o s') :
    ∃ w, g.Evaluates e d v o w ∧ g.InFlight st r c base s' w growth ∧ v.Continues w := by
  obtain ⟨fuel, ran⟩ := ran
  obtain ⟨b, depth, related⟩ := inFlight.related
  obtain ⟨fuel', w, ran', related'⟩ := beneath_simulates memoFree plain closed foreign fuel fits related ran
  have advances := (run_advances fuel' e (fun _ => foreign.1) fits inFlight.sound).result ran'
  exact ⟨w, ⟨fuel', ran'⟩, ⟨⟨b, depth, related'⟩, inFlight.above.continues advances.continues,
    advances.continues.growing.trans inFlight.top, inFlight.bottom⟩, advances.continues⟩

theorem reference {rule : Rule} (found : g.rules[r]? = some rule) (mode : rule.mode = .leftRecursive) :
    g.Evaluates (.adapt .forward (.rule r)) c v growth.seed (v.reread growth) := by
  refine Evaluates.adapt ⟨1, ?_⟩ rfl
  rw [run_leftRecursive found 0 mode]
  exact Runner.leftRecursive_seed rule.title _ inFlight.lookup

end InFlight

structure Folds (g : Grammar) (r : Nat) (term op : Expr) (f : Value → Value → Value → Value) : Prop where
  found : ∃ title, g.rules[r]? = some ⟨.leftRecursive, title, .leftFold r term op f⟩
  term : g.Foreign r term
  op : g.Foreign r op

section Passes
variable {f : Value → Value → Value → Value} {acc : Value} {stop : Cursor} {phase : Phase} {depth : Nat}
  (folds : g.Folds r term op f) (memoFree : g.MemoFree) (plain : st.plain) (closed : st.closed)
include folds memoFree plain closed

theorem folding_operator (inFlight : g.InFlight st r c base s v ⟨.success acc stop, phase, depth⟩)
    (fits : stop.Fits st) (ran : g.Evaluates op stop s o s') :
    ∃ w, g.Evaluates (.pair (.adapt .forward (.rule r)) op) c v (o.map (.pair acc)) w ∧
      g.InFlight st r c base s' w ⟨.success acc stop, phase, depth⟩ ∧ v.Continues w := by
  obtain ⟨title, found⟩ := folds.found
  have seed := inFlight.reference found rfl
  obtain ⟨w, ran', inFlight', continues⟩ := inFlight.reread.run memoFree plain closed folds.op fits ran
  exact ⟨w, seed.pair ran', inFlight', (v.reread_continues _).trans continues⟩

theorem folding_term {value : Value} {operand : Outcome} {s'' : Session}
    (inFlight : g.InFlight st r c base s v ⟨.success acc stop, phase, depth⟩) (fits : stop.Fits st)
    (ran : g.Evaluates op stop s (.success value d) s') (fits' : d.Fits st)
    (ran' : g.Evaluates term d s' operand s'') :
    ∃ w, g.Evaluates (.folding r term op f) c v (operand.map (f acc value)) w ∧
      g.InFlight st r c base s'' w ⟨.success acc stop, phase, depth⟩ ∧ v.Continues w := by
  obtain ⟨u, first, inFlight', continues⟩ := folding_operator folds memoFree plain closed inFlight fits ran
  obtain ⟨w, second, inFlight'', continues'⟩ := inFlight'.run memoFree plain closed folds.term fits' ran'
  refine ⟨w, (first.pair second).adapt ?_, inFlight'', continues.trans continues'⟩
  cases operand <;> rfl

theorem folding_failure {message found : String}
    (inFlight : g.InFlight st r c base s v ⟨.success acc stop, phase, depth⟩) (fits : stop.Fits st)
    (ran : g.Evaluates op stop s (.failure message d found) s') :
    ∃ w, g.Evaluates (.folding r term op f) c v (.failure message d found) w ∧
      g.InFlight st r c base s' w ⟨.success acc stop, phase, depth⟩ ∧ v.Continues w := by
  obtain ⟨w, first, inFlight', continues⟩ := folding_operator folds memoFree plain closed inFlight fits ran
  exact ⟨w, (Evaluates.pair_failure first).adapt rfl, inFlight', continues⟩

end Passes

section Growth
variable {f : Value → Value → Value → Value} {acc initial : Value} {stop first : Cursor} {memo : List (Key × Entry)}
  {cap left grown : Nat}

theorem pass_fails {message found : String} (settled : g.Settled st memo term c (.success initial first))
    (evaluated : g.Evaluates (.folding r term op f) c v (.failure message d found) w) (sound : w.Sound g st)
    (knows : w.Knows g memo) (later : first.index ≤ stop.index) :
    ∃ pass u, g.Evaluates (.leftFold r term op f) c v pass u ∧ u.Alike w ∧
      Runner.improves pass (.success acc stop) = false := by
  by_cases here : d.index = c.index
  · obtain ⟨fuel, u, again, alike⟩ := settled w sound knows
    refine ⟨_, u, evaluated.orElse_second here ⟨fuel, again⟩, alike, ?_⟩
    simpa [Runner.improves] using later
  · exact ⟨_, w, evaluated.orElse_failure here, .refl w, rfl⟩

theorem growth_ends {body : Expr} (evaluated : g.Evaluates body c v.counted pass w)
    (top : w.growing.lookup ⟨.rule r, c.index⟩ = some growth) (phase : growth.phase = .growing)
    (worse : Runner.improves pass growth.seed = false) (cap left grown : Nat) :
    ∃ fuel u, Runner.growFrom (.rule r) cap (g.run fuel body) (left + 1) grown c v = .ok (growth.seed, u) := by
  obtain ⟨fuel, ran⟩ := evaluated
  refine ⟨fuel, w, ?_⟩
  rw [Runner.growFrom_succ, ran, ok_bind, Runner.turn_stops top worse cap grown, Runner.Turn.follow]
  simp [phase]

theorem growth_capped {body : Expr} (evaluated : g.Evaluates body c v.counted pass w)
    (top : w.growing.lookup ⟨.rule r, c.index⟩ = some growth) (better : Runner.improves pass growth.seed = true)
    (reached : cap ≤ growth.next grown) (left : Nat) :
    ∃ fuel u, Runner.growFrom (.rule r) cap (g.run fuel body) (left + 1) grown c v = .ok (pass, u) := by
  obtain ⟨fuel, ran⟩ := evaluated
  obtain ⟨note, turned⟩ := Runner.turn_capped top better reached
  refine ⟨fuel, w.annotate note, ?_⟩
  rw [Runner.growFrom_succ, ran, ok_bind, turned, Runner.Turn.follow]

theorem growth_goesOn {body : Expr} (evaluated : g.Evaluates body c v.counted pass w)
    (top : w.growing.lookup ⟨.rule r, c.index⟩ = some growth) (better : Runner.improves pass growth.seed = true)
    (short : growth.next grown < cap)
    (again : ∀ note, ∃ fuel u, Runner.growFrom (.rule r) cap (g.run fuel body) left (growth.next grown) c
      ((w.annotate note).grow ⟨.rule r, c.index⟩ pass) = .ok (o, u)) :
    ∃ fuel u, Runner.growFrom (.rule r) cap (g.run fuel body) (left + 1) grown c v = .ok (o, u) := by
  obtain ⟨fuel, ran⟩ := evaluated
  obtain ⟨note, turned⟩ := Runner.turn_goesOn top better short
  obtain ⟨fuel', u, again⟩ := again note
  refine ⟨max fuel fuel', u, ?_⟩
  rw [Runner.growFrom_succ, run_mono (Nat.le_max_left fuel fuel') ran, ok_bind, turned, Runner.Turn.follow]
  exact Runner.growFrom_below _ cap (g.run_below (Nat.le_max_right fuel fuel') _) left _ c _ _ again

theorem foldRounds_grow (folds : g.Folds r term op f) (memoFree : g.MemoFree) (plain : st.plain)
    (closed : st.closed) (settled : g.Settled st memo term c (.success initial first)) {n fuel : Nat}
    {bound : Option Nat} (ran : Runner.foldRounds (g.run n term) (g.run n op) f fuel bound acc stop s = .ok (o, s'))
    (inFlight : g.InFlight st r c base s v ⟨.success acc stop, .growing, 0⟩) (fits : stop.Fits st)
    (ahead : c.index + grown ≤ stop.index) (later : first.index ≤ stop.index) (knows : v.Knows g memo)
    (keeps : Runner.Keeps (Text.byteLength st.text) c.index cap grown bound) (short : grown < cap)
    (enough : cap ≤ left + grown) :
    ∃ fuel' u, Runner.growFrom (.rule r) cap (g.run fuel' (.leftFold r term op f)) left grown c v = .ok (o, u) := by
  induction fuel generalizing bound acc stop s v left grown with
  | zero => cases ran
  | succ fuel ih =>
      obtain ⟨left, rfl⟩ : ∃ left', left = left' + 1 := ⟨left - 1, by omega⟩
      have knows' : v.counted.Knows g memo := knows.later v.counted_continues
      simp only [Runner.foldRounds, if_neg (keeps.unbounded short)] at ran
      -- a round of the fold is a pass of the rule: its seed, an operator, a term
      obtain ⟨⟨operator, s₁⟩, operated, ran⟩ := bind_eq_ok.1 ran
      have advances := (run_advances n op (fun _ => folds.op.1) fits inFlight.beside).result operated
      cases operator with
      | failure message d found =>
          -- the pass gives the first term again, which does not get further than the seed
          cases ran
          obtain ⟨w, evaluated, inFlight', continues⟩ :=
            folding_failure folds memoFree plain closed inFlight.counted fits ⟨n, operated⟩
          obtain ⟨pass, u, evaluated', alike, worse⟩ :=
            pass_fails settled evaluated inFlight'.sound (knows'.later continues) later
          exact growth_ends evaluated' (by rw [alike.growing]; exact inFlight'.lookup) rfl worse cap left grown
      | success value d =>
          obtain ⟨⟨operand, s₂⟩, termed, ran⟩ := bind_eq_ok.1 ran
          have fits' : d.Fits st := advances.follows.fits
          have advances' := (run_advances n term (fun _ => folds.term.1) fits' advances.sound).result termed
          obtain ⟨w, evaluated, inFlight', continues⟩ :=
            folding_term folds memoFree plain closed inFlight.counted fits ⟨n, operated⟩ fits' ⟨n, termed⟩
          cases operand with
          | failure message d' found =>
              cases ran
              obtain ⟨pass, u, evaluated', alike, worse⟩ :=
                pass_fails settled evaluated inFlight'.sound (knows'.later continues) later
              exact growth_ends evaluated' (by rw [alike.growing]; exact inFlight'.lookup) rfl worse cap left grown
          | success operand stop' =>
              have le : stop.index ≤ d.index := advances.follows.le
              have le' : d.index ≤ stop'.index := advances'.follows.le
              have inside : stop'.index ≤ Text.byteLength st.text := Cursor.Fits.index_le advances'.follows.fits
              have passed := Evaluates.orElse_success (b := term) evaluated
              by_cases stuck : stop'.index ≤ stop.index
              · simp only [if_pos stuck] at ran
                cases ran
                refine growth_ends passed inFlight'.lookup rfl ?_ cap left grown
                simpa [Runner.improves] using stuck
              · simp only [if_neg stuck] at ran
                have better (v : Value) : Runner.improves (.success v stop') (.success acc stop) = true := by
                  simpa [Runner.improves] using stuck
                have ahead' : c.index + (grown + 1) ≤ stop'.index := by omega
                by_cases reached : cap ≤ grown + 1
                · rw [keeps.next.last reached ahead' inside] at ran
                  cases Runner.foldRounds_ends ran
                  exact growth_capped passed inFlight'.lookup (better _) reached left
                · have short' := Nat.lt_of_not_le reached
                  refine growth_goesOn passed inFlight'.lookup (better _) short' fun note => ?_
                  have follows : (Outcome.success (f acc value operand) stop').Follows st c.index :=
                    ⟨advances'.follows.fits, by change c.index ≤ stop'.index; omega⟩
                  have knows'' : w.Knows g memo := knows'.later continues
                  have enough' : cap ≤ left + (grown + 1) := by omega
                  exact ih ran (inFlight'.grow note follows) advances'.follows.fits ahead' (by omega) knows''
                    keeps.next short' enough'

end Growth

theorem InFlight.start {title : String} {rest : List Char} {rule : Rule} {options : Options} {start : Session}
    (found : g.rules[r]? = some rule) (mode : rule.mode = .leftRecursive) (fits : c.Fits st)
    (alike : start.Alike (Session.fresh options {}).untracked) :
    g.InFlight st r c (.fresh options {}) (.fresh options {})
      (start.begin ⟨.rule r, c.index⟩ (Runner.firstSeed title c rest))
      ⟨Runner.firstSeed title c rest, .seeding, 0⟩ := by
  have sound : start.Sound g st := alike.sound (.congr (.fresh options {}) rfl rfl)
  have begun : (start.begin ⟨.rule r, c.index⟩ (Runner.firstSeed title c rest)).Sound g st :=
    sound.begin ⟨r, rule, rfl, found, mode⟩ (fun _ _ => by rw [alike.memo]; rfl)
      (Runner.firstSeed_follows fits title rest)
  have top : (start.begin ⟨.rule r, c.index⟩ (Runner.firstSeed title c rest)).growing =
      [(⟨.rule r, c.index⟩, ⟨Runner.firstSeed title c rest, .seeding, 0⟩)] := by
    rw [Session.begin, alike.growing]
    rfl
  refine ⟨⟨{ depth := 1 }, rfl, .fresh options {}, begun, ⟨alike.options.symm, fun key mine => ?_, ⟨0, rfl, ?_⟩,
    fun key mine => ?_, ⟨none, rfl, alike.read⟩, alike.passes.symm, alike.reentries.symm⟩, fun index => ⟨rfl, ?_⟩⟩,
    .begin alike _ _, top, rfl⟩
  · have differs : key ≠ ⟨.rule r, c.index⟩ := by
      rintro rfl
      exact mine.2 rfl
    refine ⟨none, rfl, ?_⟩
    rw [top, List.lookup_cons, beq_eq_false_iff_ne.2 differs]
    rfl
  · rw [top]
    rfl
  · exact congrArg (List.lookup key) alike.memo.symm
  · exact congrArg (List.lookup (⟨.rule r, index⟩ : Key)) alike.memo

theorem InFlight.settled (inFlight : g.InFlight st r c base s v growth) (memoFree : g.MemoFree) (plain : st.plain)
    (closed : st.closed) (foreign : g.Foreign r e) (fits : d.Fits st) (unread : s.shallowestRead = none)
    (ran : g.Evaluates e d s o s') (after : g.InFlight st r c base s' w growth) : g.Settled st w.memo e d o := by
  obtain ⟨fuel, ran⟩ := ran
  obtain ⟨b, depth, related⟩ := inFlight.related
  obtain ⟨b', -, related'⟩ := after.related
  have agree := related.agree
  -- the same run again, with the reads before it left out
  have start : (g.beneath st r).Related {} b.untracked s v.untracked :=
    ⟨related.left, related.right.congr rfl rfl, ⟨agree.options, agree.growing, agree.height, agree.memo,
      ⟨none, unread, rfl⟩, agree.passes, agree.reentries⟩, related.extra⟩
  obtain ⟨fuel', u, again, inner⟩ := beneath_simulates memoFree plain closed foreign fuel fits start ran
  have unread' : u.readsBelow v.untracked.growing.length = false := by
    have height : v.untracked.growing.length = 1 := by
      change v.growing.length = 1
      rw [inFlight.top, inFlight.bottom]
      rfl
    obtain ⟨x, -, right⟩ := inner.agree.read
    rw [Session.readsBelow, right, height]
    cases x with
    | none => rfl
    | some x => simp [View.untracked, Session.shallower, depth]
  have settled := run_settled memoFree plain closed foreign.1 fits start.right again unread'
  refine settled.mono fun key entry grows known => ?_
  by_cases mine : key.parser = .rule r
  · have same : key = ⟨.rule r, key.index⟩ := by rw [← mine]
    rw [same, (inner.extra key.index).2] at known
    cases known
  · rw [← related'.agree.memo key ⟨grows, mine⟩, inner.agree.memo key ⟨grows, mine⟩]
    exact known

theorem leftFold_grows {f : Value → Value → Value → Value} (folds : g.Folds r term op f) (memoFree : g.MemoFree)
    (plain : st.plain) (closed : st.closed) (fits : c.Fits st) {options : Options} {n fuel : Nat}
    (ran : Runner.leftFold fuel options.growthBound (g.run n term) (g.run n op) f c (.fresh options {}) =
      .ok (o, s')) {rest : List Char} (remains : c.remaining = .ok rest) (title : String) {start : Session}
    (alike : start.Alike (Session.fresh options {}).untracked) :
    ∃ fuel' u, Runner.growFrom (.rule r) (Runner.growthCap options rest) (g.run fuel' (.leftFold r term op f))
      (Runner.growthCap options rest + 1) 0 c
      (start.begin ⟨.rule r, c.index⟩ (Runner.firstSeed title c rest)) = .ok (o, u) := by
  obtain ⟨_, found⟩ := folds.found
  have begun : g.InFlight st r c (.fresh options {}) (.fresh options {})
      (start.begin ⟨.rule r, c.index⟩ (Runner.firstSeed title c rest))
      ⟨Runner.firstSeed title c rest, .seeding, 0⟩ :=
    .start found rfl fits alike
  obtain ⟨⟨operand, s₁⟩, termed, ran⟩ := bind_eq_ok.1 ran
  have advances := (run_advances n term (fun _ => folds.term.1) fits (.fresh options {})).result termed
  -- against the first seed the reference fails at the cursor, so that the term is tried there
  obtain ⟨w, evaluated, inFlight, continues⟩ :=
    begun.counted.reread.run memoFree plain closed folds.term fits ⟨n, termed⟩
  have failed : g.Evaluates (.folding r term op f) c _ (Runner.firstSeed title c rest) _ :=
    (Evaluates.pair_failure (Evaluates.pair_failure (begun.counted.reference found rfl))).adapt rfl
  have passed : g.Evaluates (.leftFold r term op f) c _ operand w := failed.orElse_second rfl evaluated
  have settled := begun.counted.reread.settled memoFree plain closed folds.term fits rfl ⟨n, termed⟩ inFlight
  cases operand with
  | failure message d found =>
      cases ran
      obtain ⟨m, passed⟩ := passed
      refine ⟨m, w, ?_⟩
      rw [Runner.growFrom_succ, passed, ok_bind, Runner.turn_stops inFlight.lookup rfl]
      rfl
  | success initial first =>
      have first_le : c.index ≤ first.index := advances.follows.le
      have better : Runner.improves (.success initial first) (Runner.firstSeed title c rest) = true := rfl
      have keeps := Runner.keeps_growthCap fits remains options
      -- the first pass does not count as growth
      by_cases reached : Runner.growthCap options rest ≤ 0
      · rw [keeps.last reached first_le advances.follows.fits.index_le] at ran
        cases Runner.foldRounds_ends ran
        exact growth_capped passed inFlight.lookup better reached _
      · have short := Nat.lt_of_not_le reached
        refine growth_goesOn passed inFlight.lookup better short fun note => ?_
        exact foldRounds_grow folds memoFree plain closed settled ran (inFlight.grow note advances.follows)
          advances.follows.fits first_le (Nat.le_refl _) (fun _ _ _ known => known) keeps short (Nat.le_refl _)

theorem leftFold_evaluates {f : Value → Value → Value → Value} (folds : g.Folds r term op f) (memoFree : g.MemoFree)
    (plain : st.plain) (closed : st.closed) (fits : c.Fits st) {options : Options} {n fuel : Nat}
    (ran : Runner.leftFold fuel options.growthBound (g.run n term) (g.run n op) f c (.fresh options {}) =
      .ok (o, s')) : ∃ t, g.Evaluates (.rule r) c (.fresh options {}) o t := by
  obtain ⟨title, found⟩ := folds.found
  obtain ⟨before, rest, remains, -, -⟩ := fits.remaining
  let fresh := Session.fresh options {}
  obtain ⟨start, alike, grows⟩ : ∃ start : Session, start.Alike fresh.untracked ∧
      ∀ body, Runner.leftRecursive (.rule r) title body c fresh = _ :=
    Runner.leftRecursive_grow title remains rfl rfl
  obtain ⟨fuel', u, grown⟩ := leftFold_grows folds memoFree plain closed fits ran remains title alike
  refine ⟨fresh.kept (u.finish ⟨.rule r, c.index⟩) ⟨.rule r, c.index⟩ o, fuel' + 1, ?_⟩
  rw [run_leftRecursive found fuel' rfl, grows]
  exact bind_eq_ok.2 ⟨(o, u), grown, rfl⟩

theorem Folds.withoutMemo {f : Value → Value → Value → Value} (folds : g.Folds r term op f) :
    g.withoutMemo.Folds r term op f := by
  obtain ⟨title, found⟩ := folds.found
  exact ⟨⟨title, rules_withoutMemo_of_ne found (by simp)⟩,
    ⟨folds.term.1.withoutMemo, fun uses => folds.term.2 uses.of_withoutMemo⟩,
    ⟨folds.op.1.withoutMemo, fun uses => folds.op.2 uses.of_withoutMemo⟩⟩

/-- A rule that is a term, or itself followed by an operator and a term, gives in a fresh session what the fold
gives that threads a fresh session through its terms and operators. These are to be free of interceptors and of
references to the rule, and to return wherever no rule is in flight. -/
theorem leftRecursion_folds (g : Grammar) (r : Nat) (title : String) (term op : Expr)
    (f : Value → Value → Value → Value) (c : Cursor) (options : Options)
    (found : g.rules[r]? = some ⟨.leftRecursive, title, .leftFold r term op f⟩) (free : g.InterceptFree (.rule r))
    (apart : ¬g.Uses term (.rule r) ∧ ¬g.Uses op (.rule r)) (boundary : (Text.dropBytes? c.index c.text).isSome)
    (plain : c.context = none)
    (returns : ∀ e, e = term ∨ e = op → ∀ (d : Cursor) (s : Session), d.Fits ⟨c.text, true, true⟩ →
      g.Reachable ⟨c.text, true, true⟩ s → s.growing = [] → ∃ fuel o t, g.run fuel e d s = .ok (o, t)) :
    ∃ o, (∀ o', (∃ fuel s, g.run fuel (.rule r) c (.fresh options {}) = .ok (o', s)) ↔ o' = o) ∧
      ∀ o', (∃ rounds fuel s, Runner.leftFold rounds options.growthBound (g.run fuel term) (g.run fuel op) f c
        (.fresh options {}) = .ok (o', s)) ↔ o' = o := by
  let st : Setting := ⟨c.text, true, true⟩
  have fits : c.Fits st := ⟨rfl, boundary, fun _ => plain⟩
  have freeTerm : g.InterceptFree term := (free.body found).part .orElseSecond
  have freeOp : g.InterceptFree op :=
    ((((free.body found).part .orElseFirst).part .adapt).part .pairFirst).part .pairSecond
  have freeParts (e : Expr) (part : e = term ∨ e = op) : g.InterceptFree e := by
    rcases part with rfl | rfl
    · exact freeTerm
    · exact freeOp
  have folds : g.Folds r term op f := ⟨⟨title, found⟩, ⟨freeTerm, apart.1⟩, ⟨freeOp, apart.2⟩⟩
  -- the fold returns, as each of its rounds advances
  let D : Discipline := ⟨st, c.index, fun e => e = term ∨ e = op, True⟩
  let rounds := Text.byteLength c.text + 1
  have orderly : Routine.Orderly D D.Gives fun run =>
      Runner.leftFold rounds options.growthBound (run term) (run op) f c :=
    .leftFold (Or.inl rfl) (Or.inr rfl) f options.growthBound ⟨fits, Nat.le_refl _⟩ fun _ => Nat.lt_succ_self _
  have parts (e : Expr) (d : Cursor) (s : Session) (part : e = term ∨ e = op) (here : D.Allows d)
      (inside : g.Reachable st s ∧ s.growing = []) : ∃ fuel o t, g.run fuel e d s = .ok (o, t) ∧
        o.Follows st d.index ∧ g.Reachable st t ∧ t.growing = [] := by
    obtain ⟨fuel, o, t, ran⟩ := returns e part d s here.fits inside.1 inside.2
    have advances := (run_advances fuel e (fun _ => freeParts e part) here.fits inside.1.sound).result ran
    exact ⟨fuel, o, t, ran, advances.follows, .ran inside.1 (fun _ => freeParts e part) here.fits ran,
      advances.continues.growing.trans inside.2⟩
  obtain ⟨fuel, ⟨o, s⟩, folded⟩ := orderly.returns trivial (fun s f inside => ⟨.noted inside.1 f, inside.2⟩) parts
    ⟨.fresh options {}, rfl⟩
  have folded := folded fuel (Nat.le_refl _)
  -- it gives the same without memoization, where the rule does what the fold does
  obtain ⟨fuel', s', folded', -⟩ := (Related.fresh g st options).orderly rfl orderly freeParts
    (fun e part => g.erasing_simulates rfl rfl fuel (freeParts e part)) folded
  obtain ⟨t, fuel'', ran⟩ := leftFold_evaluates folds.withoutMemo g.withoutMemo_memoFree rfl rfl fits
    (folded' fuel' (Nat.le_refl _))
  obtain ⟨more, t', ran', -⟩ := g.restoring_simulates rfl rfl fuel'' free fits (Related.fresh g st options).flip ran
  refine ⟨o, fun o' => ⟨?_, ?_⟩, fun o' => ⟨?_, ?_⟩⟩
  · rintro ⟨_, _, ran''⟩
    exact congrArg Prod.fst (run_unique ran'' ran')
  · rintro rfl
    exact ⟨more, t', ran'⟩
  · rintro ⟨_, _, _, folded''⟩
    exact congrArg Prod.fst (leftFold_unique folded'' folded)
  · rintro rfl
    exact ⟨rounds, fuel, s, folded⟩

theorem leftRecursion_folds_difference :
    let subtract : Value → Value → Value → Value := fun a _ b => Transform.sub.apply (.pair a b)
    let g : Grammar := { rules := [
      ⟨.leftRecursive, "difference", .leftFold 0 (.prim .integer) (.prim (.char '-')) subtract⟩] }
    let c : Cursor := .start "10-5-2".toList none
    let options : Options := { growthBound := some 1 }
    let o : Outcome := .success (.int 5) { c with index := 4 }
    (∀ o', (∃ fuel s, g.run fuel (.rule 0) c (.fresh options {}) = .ok (o', s)) ↔ o' = o) ∧
      ∀ o', (∃ rounds fuel s, Runner.leftFold rounds options.growthBound (g.run fuel (.prim .integer))
        (g.run fuel (.prim (.char '-'))) subtract c (.fresh options {}) = .ok (o', s)) ↔ o' = o := by
  intro subtract g c options o
  have apart (p : Prim) : ¬g.Uses (.prim p) (.rule 0) := by
    intro uses
    cases uses with
    | part part _ => cases part
  have returns (p : Prim) (d : Cursor) (s : Session) (fits : d.Fits ⟨c.text, true, true⟩) :
      ∃ fuel o t, g.run fuel (.prim p) d s = .ok (o, t) := by
    obtain ⟨o, ran, -⟩ := p.run_follows fits
    exact ⟨1, o, s, by simp only [run, ran, ok_bind]; rfl⟩
  have ran : ∃ s, g.run 8 (.rule 0) c (.fresh options {}) = .ok (o, s) := by
    subst subtract g c options o
    exact ⟨_, rfl⟩
  obtain ⟨s, ran⟩ := ran
  obtain ⟨o', runs, folds⟩ := leftRecursion_folds g 0 "difference" (.prim .integer) (.prim (.char '-')) subtract c
    options rfl (.of_isSimple rfl rfl) ⟨apart _, apart _⟩ (by decide) rfl (by
      rintro e (rfl | rfl) d s fits _ _
      · exact returns _ d s fits
      · exact returns _ d s fits)
  obtain rfl : o = o' := (runs o).1 ⟨8, s, ran⟩
  exact ⟨runs, folds⟩

end Grammar
end ParseEngine
