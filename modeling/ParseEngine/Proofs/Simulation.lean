import ParseEngine.Proofs.Agreement

namespace ParseEngine

/-- Two grammars to be run side by side on a text, the rules on which their sessions are to agree, and what is to
hold of their memo tables besides. -/
structure Pairing where
  left : Grammar
  right : Grammar
  setting : Setting
  own : ParserId → Prop
  extra : List (Key × Entry) → List (Key × Entry) → Prop

namespace Pairing

structure Related (P : Pairing) (a b : View) (s t : Session) : Prop where
  left : s.Sound P.left P.setting
  right : t.Sound P.right P.setting
  agree : Session.Agree P.own a b s t
  extra : P.extra s.memo t.memo

def Simulates (P : Pairing) (fuel : Nat) (e : Expr) : Prop :=
  ∀ ⦃a b : View⦄ ⦃s s' t : Session⦄ ⦃c : Cursor⦄ ⦃o : Outcome⦄, c.Fits P.setting → P.Related a b s t →
    P.left.run fuel e c s = .ok (o, s') →
    ∃ fuel' t', P.right.run fuel' e c t = .ok (o, t') ∧ P.Related a b s' t'

structure Lawful (P : Pairing) (used : Expr → Prop) (special : Nat → Prop) : Prop where
  plain : P.setting.plain
  closed : P.setting.closed
  part : ∀ {p e : Expr}, used e → p.Part e → used p
  body : ∀ {r : Nat} {rule : Rule}, used (.rule r) → P.left.rules[r]? = some rule → used rule.body
  freeLeft : ∀ {e : Expr}, used e → P.left.InterceptFree e
  freeRight : ∀ {e : Expr}, used e → P.right.InterceptFree e
  description : Expr.description P.left.rules = Expr.description P.right.rules
  rule : ∀ {r : Nat}, used (.rule r) → special r ∨ P.left.rules[r]? = P.right.rules[r]? ∧
    ∀ rule, P.left.rules[r]? = some rule → rule.mode = .plain ∨ rule.mode = .leftRecursive ∧ P.own (.rule r)
  extend : ∀ {memo memo' : List (Key × Entry)} {key : Key} {entry : Entry}, P.extra memo memo' →
    P.own key.parser → memo.lookup key = none → memo'.lookup key = none →
    P.extra ((key, entry) :: memo) ((key, entry) :: memo')

variable {P : Pairing} {a b : View} {s s' t t' : Session} {c : Cursor} {o : Outcome}

def flip (P : Pairing) : Pairing :=
  { P with left := P.right, right := P.left, extra := fun memo memo' => P.extra memo' memo }

namespace Related

theorem flip (related : P.Related a b s t) : P.flip.Related b a t s :=
  ⟨related.right, related.left, related.agree.symm, related.extra⟩

theorem alike (related : P.Related a b s t) (left : s'.Alike s) (right : t'.Alike t) : P.Related a b s' t' := by
  refine ⟨left.sound related.left, right.sound related.right, related.agree.alike left right, ?_⟩
  rw [left.memo, right.memo]
  exact related.extra

theorem untracked (related : P.Related a b s t) :
    P.Related a.untracked b.untracked s.untracked t.untracked :=
  ⟨related.left.congr rfl rfl, related.right.congr rfl rfl, related.agree.untracked, related.extra⟩

theorem counted (related : P.Related a b s t) : P.Related a b s.counted t.counted :=
  ⟨related.left.congr rfl rfl, related.right.congr rfl rfl, related.agree.counted, related.extra⟩

section Rule
variable {r : Nat} {rule : Rule} {used : Expr → Prop} {special : Nat → Prop} (lawful : P.Lawful used special)
  (mine : P.own (.rule r)) (found : P.left.rules[r]? = some rule) (found' : P.right.rules[r]? = some rule)
  (mode : rule.mode = .leftRecursive) (fits : c.Fits P.setting)

include found found' mode in
theorem begin (related : P.Related a b s t) (unknown : s.memo.lookup ⟨.rule r, c.index⟩ = none)
    (unknown' : t.memo.lookup ⟨.rule r, c.index⟩ = none) (follows : o.Follows P.setting c.index) :
    P.Related a b (s.begin ⟨.rule r, c.index⟩ o) (t.begin ⟨.rule r, c.index⟩ o) :=
  ⟨related.left.begin ⟨r, rule, rfl, found, mode⟩ (fun _ _ => unknown) follows,
    related.right.begin ⟨r, rule, rfl, found', mode⟩ (fun _ _ => unknown') follows,
    related.agree.begin _ o, related.extra⟩

include lawful mine in
theorem kept {u v : Session} (related : P.Related a b s t) (inner : P.Related a.untracked b.untracked u v)
    (idle : s.growing.lookup ⟨.rule r, c.index⟩ = none) (idle' : t.growing.lookup ⟨.rule r, c.index⟩ = none)
    (above : s.Above ⟨.rule r, c.index⟩ u) (above' : t.Above ⟨.rule r, c.index⟩ v)
    (follows : o.Follows P.setting c.index) :
    P.Related a b (s.kept (u.finish ⟨.rule r, c.index⟩) ⟨.rule r, c.index⟩ o)
      (t.kept (v.finish ⟨.rule r, c.index⟩) ⟨.rule r, c.index⟩ o) := by
  have popped := above.finish idle
  have popped' := above'.finish idle'
  obtain ⟨growth, top⟩ := above.growing
  obtain ⟨growth', top'⟩ := above'.growing
  have finished := related.agree.finish inner.agree popped popped'
  refine ⟨?_, ?_, related.agree.kept finished mine, ?_⟩
  · exact (inner.left.finish related.left top idle).kept (fun _ _ => popped ▸ idle) follows
  · exact (inner.right.finish related.right top' idle').kept (fun _ _ => popped' ▸ idle') follows
  · -- a rule in flight is not remembered
    have unknown := inner.left.apart lawful.plain lawful.closed ⟨.rule r, c.index⟩ growth (by simp [top])
    have unknown' := inner.right.apart lawful.plain lawful.closed ⟨.rule r, c.index⟩ growth' (by simp [top'])
    have forgotten : (u.finish ⟨.rule r, c.index⟩).remembers ⟨.rule r, c.index⟩ = false :=
      Session.remembers_eq_false.2 unknown
    have forgotten' : (v.finish ⟨.rule r, c.index⟩).remembers ⟨.rule r, c.index⟩ = false :=
      Session.remembers_eq_false.2 unknown'
    rw [Session.kept_memo, Session.kept_memo, related.agree.readsBelow_eq finished, forgotten, forgotten']
    simp only [Bool.false_eq_true, if_false]
    split
    · exact inner.extra
    · exact lawful.extend inner.extra mine unknown unknown'

end Rule

end Related

theorem Related.orderly (related : P.Related a b s t) {D : Discipline} (same : D.setting = P.setting) {α : Type}
    {Q : α → Prop} {R : Routine α} (orderly : Routine.Orderly D Q R) {fuel : Nat}
    (free : ∀ e, D.parts e → P.left.InterceptFree e) (parts : ∀ e, D.parts e → P.Simulates fuel e) {x : α}
    (ran : R (P.left.run fuel) s = .ok (x, s')) :
    ∃ fuel' t', (∀ more, fuel' ≤ more → R (P.right.run more) t = .ok (x, t')) ∧ P.Related a b s' t' := by
  induction orderly generalizing s t with
  | done result =>
      cases ran
      exact ⟨0, t, fun _ _ => rfl, related⟩
  | exhausted lossy => cases ran
  | note f _ ih => exact ih (related.alike (.annotate s f) (.annotate t f)) ran
  | ask part here _ ih =>
      obtain ⟨⟨o, u⟩, ran, ran'⟩ := bind_eq_ok.1 ran
      have fits := same ▸ here.fits
      have advances := (Grammar.run_advances fuel _ (fun _ => free _ part) fits related.left).result ran
      obtain ⟨first, v, again, related'⟩ := parts _ part fits related ran
      obtain ⟨second, w, again', related''⟩ := ih o (same ▸ advances.follows) related' ran'
      refine ⟨max first second, w, fun more enough => ?_, related''⟩
      have le := Nat.max_le.1 enough
      simp only [Grammar.run_mono le.1 again, ok_bind]
      exact again' more le.2

theorem Related.growFrom {r fuel : Nat} {body : Expr} (mine : P.own (.rule r)) (fits : c.Fits P.setting)
    (freeLeft : P.left.InterceptFree body) (freeRight : P.right.InterceptFree body)
    (simulates : P.Simulates fuel body) {base base' : Session}
    (idle : base.growing.lookup ⟨.rule r, c.index⟩ = none) (idle' : base'.growing.lookup ⟨.rule r, c.index⟩ = none)
    {cap left grown : Nat} (related : P.Related a b s t) (above : base.Above ⟨.rule r, c.index⟩ s)
    (above' : base'.Above ⟨.rule r, c.index⟩ t)
    (ran : Runner.growFrom (.rule r) cap (P.left.run fuel body) left grown c s = .ok (o, s')) :
    ∃ fuel' t', Runner.growFrom (.rule r) cap (P.right.run fuel' body) left grown c t = .ok (o, t') ∧
      P.Related a b s' t' ∧ base.Above ⟨.rule r, c.index⟩ s' ∧ base'.Above ⟨.rule r, c.index⟩ t' := by
  induction left generalizing grown s t with
  | zero => cases ran
  | succ left ih =>
      rw [Runner.growFrom_succ] at ran
      obtain ⟨⟨pass, u⟩, passed, ran⟩ := bind_eq_ok.1 ran
      obtain ⟨first, v, passed', related'⟩ := simulates fits related.counted passed
      have advances := (Grammar.run_advances fuel body (fun _ => freeLeft) fits related.counted.left).result passed
      have advances' :=
        (Grammar.run_advances first body (fun _ => freeRight) fits related.counted.right).result passed'
      have above := above.continues (s.counted_continues.trans advances.continues)
      have above' := above'.continues (t.counted_continues.trans advances'.continues)
      -- the rule is in flight on both sides, with the same seed
      obtain ⟨growth, top, top'⟩ : ∃ growth : Growth,
          u.growing.lookup ⟨.rule r, c.index⟩ = some (growth.deepen a.depth) ∧
            v.growing.lookup ⟨.rule r, c.index⟩ = some (growth.deepen b.depth) := by
        rcases related'.agree.inFlight ⟨.rule r, c.index⟩ mine with ⟨missing, -⟩ | inFlight
        · obtain ⟨growth, top⟩ := above.lookup
          rw [missing] at top
          cases top
        · exact inFlight
      rcases Runner.turn_cases top cap grown pass with
        ⟨worse, turned⟩ | ⟨better, reached, note, turned⟩ | ⟨better, short, note, turned⟩
      · simp only [turned, Runner.Turn.follow] at ran
        cases ran
        refine ⟨first, v, ?_, related', above, above'⟩
        rw [Runner.growFrom_succ, passed', ok_bind, Runner.turn_stops top' worse cap grown]
        rfl
      · simp only [turned, Runner.Turn.follow] at ran
        cases ran
        obtain ⟨note', turned'⟩ := Runner.turn_capped top' better reached
        refine ⟨first, v.annotate note', ?_, related'.alike (.annotate u note) (.annotate v note'),
          above.continues (.annotate u note), above'.continues (.annotate v note')⟩
        rw [Runner.growFrom_succ, passed', ok_bind, turned', Runner.Turn.follow]
      · simp only [turned, Runner.Turn.follow] at ran
        obtain ⟨note', turned'⟩ := Runner.turn_goesOn top' better short
        have noted := related'.alike (.annotate u note) (.annotate v note')
        have above := above.continues (.annotate u note)
        have above' := above'.continues (.annotate v note')
        obtain ⟨_, stack⟩ := above.growing
        obtain ⟨_, stack'⟩ := above'.growing
        have regrown : P.Related a b ((u.annotate note).grow ⟨.rule r, c.index⟩ pass)
            ((v.annotate note').grow ⟨.rule r, c.index⟩ pass) :=
          ⟨noted.left.grow stack idle advances.follows, noted.right.grow stack' idle' advances'.follows,
            noted.agree.grow _ pass, noted.extra⟩
        obtain ⟨second, w, again, result⟩ := ih regrown (above.grow idle pass) (above'.grow idle' pass) ran
        refine ⟨max first second, w, ?_, result⟩
        rw [Runner.growFrom_succ, Grammar.run_mono (Nat.le_max_left first second) passed', ok_bind, turned',
          Runner.Turn.follow]
        have more := P.right.run_below (Nat.le_max_right first second) body
        exact Runner.growFrom_below _ cap more left _ c _ _ again

theorem simulates_leftRecursive {r fuel : Nat} {rule : Rule} {used : Expr → Prop} {special : Nat → Prop}
    (lawful : P.Lawful used special) (uses : used (.rule r)) (mine : P.own (.rule r))
    (found : P.left.rules[r]? = some rule) (found' : P.right.rules[r]? = some rule)
    (mode : rule.mode = .leftRecursive) (simulates : P.Simulates fuel rule.body) :
    P.Simulates (fuel + 1) (.rule r) := by
  intro a b s s' t c o fits related ran
  have freeLeft := lawful.freeLeft (lawful.body uses found)
  have freeRight := lawful.freeRight (lawful.body uses found)
  have step (more : Nat) {t' : Session}
      (result : Runner.leftRecursive (.rule r) rule.title (P.right.run more rule.body) c t = .ok (o, t')) :
      P.right.run (more + 1) (.rule r) c t = .ok (o, t') := by
    rw [Grammar.run_leftRecursive found' more mode]
    exact result
  rw [Grammar.run_leftRecursive found fuel mode] at ran
  rcases related.agree.inFlight ⟨.rule r, c.index⟩ mine with ⟨idle, idle'⟩ | ⟨growth, top, top'⟩
  · -- both sides remember the same of the rule, so both hit or both grow a seed
    have same := related.agree.memo ⟨.rule r, c.index⟩ mine
    cases known : (s.memo.lookup ⟨.rule r, c.index⟩).bind (·.outcome? c.context.isSome) with
    | some found =>
        obtain ⟨u, alike, hit⟩ := Runner.leftRecursive_hit rule.title (P.left.run fuel rule.body) idle known
        obtain ⟨v, alike', hit'⟩ :=
          Runner.leftRecursive_hit rule.title (P.right.run 0 rule.body) idle' (same ▸ known)
        rw [hit] at ran
        cases ran
        exact ⟨1, v, step 0 hit', related.alike alike alike'⟩
    | none =>
        obtain ⟨before, rest, remains, -, -⟩ := fits.remaining
        obtain ⟨start, alike, grows⟩ := Runner.leftRecursive_grow rule.title remains idle known
        obtain ⟨start', alike', grows'⟩ := Runner.leftRecursive_grow rule.title remains idle' (same ▸ known)
        have unknown := Runner.miss_unknown related.left fits lawful.plain lawful.closed known
        have unknown' := Runner.miss_unknown related.right fits lawful.plain lawful.closed (same ▸ known)
        have begun := (related.untracked.alike alike alike').begin found found' mode
          (by rw [alike.memo]; exact unknown) (by rw [alike'.memo]; exact unknown')
          (Runner.firstSeed_follows fits rule.title rest)
        have follows := (Grammar.run_advances (fuel + 1) _ (fun _ => lawful.freeLeft uses) fits related.left).result
          (by rw [Grammar.run_leftRecursive found fuel mode]; exact ran)
        rw [grows, related.agree.options] at ran
        obtain ⟨⟨o, u⟩, grown, result⟩ := bind_eq_ok.1 ran
        cases result
        obtain ⟨fuel', v, grown', inner, above, above'⟩ := begun.growFrom mine fits freeLeft freeRight simulates
          idle idle' (.begin alike _ _) (.begin alike' _ _) grown
        refine ⟨fuel' + 1, t.kept (v.finish ⟨.rule r, c.index⟩) ⟨.rule r, c.index⟩ o, step fuel' ?_, ?_⟩
        · rw [grows', grown']
          rfl
        · exact related.kept lawful mine inner idle idle' above above' follows.follows
  · rw [Runner.leftRecursive_seed rule.title _ top] at ran
    cases ran
    refine ⟨1, t.reread (growth.deepen b.depth), step 0 (Runner.leftRecursive_seed rule.title _ top'), ?_⟩
    exact ⟨related.left.congr rfl rfl, related.right.congr rfl rfl, related.agree.reread growth, related.extra⟩

theorem simulates {used : Expr → Prop} {special : Nat → Prop} (lawful : P.Lawful used special)
    (specials : ∀ fuel r, special r → used (.rule r) → (∀ e, used e → P.Simulates fuel e) →
      P.Simulates (fuel + 1) (.rule r)) (fuel : Nat) (e : Expr) (uses : used e) : P.Simulates fuel e := by
  induction fuel generalizing e with
  | zero =>
      intro a b s s' t c o fits related ran
      cases ran
  | succ fuel ih =>
      by_cases composite : e.isComposite = true
      · intro a b s s' t c o fits related ran
        have orderly := e.routine_disciplined composite fits (Expr.description P.left.rules) fuel
        rw [P.left.run_composite composite] at ran
        obtain ⟨fuel', t', again, related'⟩ := related.orderly rfl orderly
          (fun p part => lawful.freeLeft (lawful.part uses part)) (fun p part => ih p (lawful.part uses part)) ran
        refine ⟨max fuel fuel' + 1, t', ?_, related'⟩
        rw [P.right.run_composite composite, ← lawful.description]
        exact e.routine_below _ (fun e c s => .refl _) (Nat.le_max_left fuel fuel') c t _
          (again _ (Nat.le_max_right fuel fuel'))
      · cases e with
        | rule r =>
            rcases lawful.rule uses with special | ⟨same, modes⟩
            · exact specials fuel r special uses ih
            · intro a b s s' t c o fits related ran
              cases found : P.left.rules[r]? with
              | none =>
                  obtain ⟨failed, rfl⟩ := (Grammar.run_missing_eq_ok fuel found).1 ran
                  exact ⟨1, t, (Grammar.run_missing_eq_ok 0 (same ▸ found)).2 ⟨failed, rfl⟩, related⟩
              | some rule =>
                  have simulates := ih rule.body (lawful.body uses found)
                  rcases modes rule found with mode | ⟨mode, mine⟩
                  · rw [Grammar.run_plain found fuel mode] at ran
                    obtain ⟨fuel', t', again, related'⟩ := simulates fits related ran
                    refine ⟨fuel' + 1, t', ?_, related'⟩
                    rw [Grammar.run_plain (same ▸ found) fuel' mode]
                    exact again
                  · have found' := same ▸ found
                    exact simulates_leftRecursive lawful uses mine found found' mode simulates fits related ran
        | intercept interceptor p => exact absurd (.self _) (lawful.freeLeft uses interceptor p)
        | _ => exact absurd rfl composite

end Pairing
end ParseEngine
