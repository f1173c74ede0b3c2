import ParseEngine.Proofs.Fuel
import ParseEngine.Proofs.Progress

/-!
Stability, for grammars without memoized rules: an outcome that was computed without reading the seed of a rule
in flight is computed again in every later session, and computing it again changes nothing. For every
left-recursive rule that the first run has called is then remembered, and a rule that is remembered does not
run.
-/

namespace ParseEngine

def Grammar.MemoFree (g : Grammar) : Prop :=
  ∀ (r : Nat) (rule : Rule), g.rules[r]? = some rule → rule.mode ≠ .memo

def Session.Knows (g : Grammar) (s : Session) (memo : List (Key × Entry)) : Prop :=
  ∀ key entry, g.Grows key.parser → memo.lookup key = some entry → s.memo.lookup key = some entry

def Grammar.Settled (g : Grammar) (st : Setting) (memo : List (Key × Entry)) (e : Expr) (c : Cursor) (o : Outcome) :
    Prop :=
  ∀ s : Session, s.Sound g st → s.Knows g memo → ∃ fuel t, g.run fuel e c s = .ok (o, t) ∧ t.Alike s

variable {g : Grammar} {st : Setting} {c : Cursor} {s t u : Session} {o : Outcome} {memo memo' : List (Key × Entry)}

theorem Grammar.Settled.mono {e : Expr} (settled : g.Settled st memo e c o)
    (more : ∀ key entry, g.Grows key.parser → memo.lookup key = some entry → memo'.lookup key = some entry) :
    g.Settled st memo' e c o :=
  fun s sound knows => settled s sound fun key entry rule known => knows key entry rule (more key entry rule known)

namespace Session

theorem Knows.alike (alike : s.Alike t) (knows : t.Knows g memo) : s.Knows g memo := by
  intro key entry rule known
  rw [alike.memo]
  exact knows key entry rule known

theorem Knows.before (knows : u.Knows g t.memo) (continues : s.Continues t) : u.Knows g s.memo :=
  fun key entry rule known => knows key entry rule (continues.memo key entry known)

theorem Knows.later (knows : s.Knows g memo) (continues : s.Continues t) : t.Knows g memo :=
  fun key entry rule known => continues.memo key entry (knows key entry rule known)

theorem Continues.unread (continues : s.Continues t) {depth : Nat} (unread : t.readsBelow depth = false) :
    s.readsBelow depth = false := by
  cases read : s.readsBelow depth with
  | false => rfl
  | true =>
      rw [continues.reads depth read] at unread
      cases unread

theorem kept_unread {key : Key} (unread : (s.kept t key o).readsBelow s.growing.length = false) :
    t.readsBelow s.growing.length = false ∧ s.kept t key o = ((s.resume t).remember key (.outcome o)).2 := by
  unfold kept at unread ⊢
  cases read : t.readsBelow s.growing.length with
  | false => simp
  | true => simp [read, readsBelow_resume] at unread

end Session

theorem Routine.Orderly.repeats {D : Discipline} {α : Type} {P : α → Prop} {R : Routine α} (orderly : Orderly D P R)
    {fuel : Nat} {I : Session → Prop} {K : Session → List (Key × Entry) → Prop}
    (free : ∀ e, D.parts e → D.setting.closed → g.InterceptFree e)
    (noted : ∀ (s : Session) f, I s → I (s.annotate f))
    (alike : ∀ (u v : Session) memo, u.Alike v → K v memo → K u memo)
    (before : ∀ u (s t : Session), s.Continues t → K u t.memo → K u s.memo)
    (parts : ∀ e c s o t, D.parts e → D.Allows c → s.Sound g D.setting → I s → g.run fuel e c s = .ok (o, t) →
      I t ∧ (t.readsBelow s.growing.length = false → ∀ u, u.Sound g D.setting → K u t.memo →
        ∃ fuel' u', g.run fuel' e c u = .ok (o, u') ∧ u'.Alike u))
    (sound : s.Sound g D.setting) (inv : I s) {a : α} (ran : R (g.run fuel) s = .ok (a, t)) :
    I t ∧ (t.readsBelow s.growing.length = false → ∀ u, u.Sound g D.setting → K u t.memo →
      ∃ fuel' u', (∀ more, fuel' ≤ more → R (g.run more) u = .ok (a, u')) ∧ u'.Alike u) := by
  have advance (e : Expr) (c : Cursor) (s : Session) (part : D.parts e) (here : D.Allows c)
      (sound : s.Sound g D.setting) : Safely (g.Advances D.setting c.index s) (g.run fuel e c s) :=
    Grammar.run_advances fuel e (free e part) here.fits sound
  induction orderly generalizing s with
  | done result =>
      cases ran
      exact ⟨inv, fun _ u _ _ => ⟨0, u, fun _ _ => rfl, .refl u⟩⟩
  | exhausted lossy => cases ran
  | note f _ ih =>
      obtain ⟨inv', again⟩ := ih ((Session.Alike.annotate s f).sound sound) (noted s f inv) ran
      refine ⟨inv', fun unread u later known => ?_⟩
      obtain ⟨fuel', u', again, alike'⟩ := again unread (u.annotate f)
        ((Session.Alike.annotate u f).sound later) (alike _ u _ (.annotate u f) known)
      exact ⟨fuel', u', again, alike'.trans (.annotate u f)⟩
  | ask part here rest ih =>
      obtain ⟨⟨o, s'⟩, ran, ran'⟩ := bind_eq_ok.1 ran
      have advances := (advance _ _ _ part here sound).result ran
      have continues := ((rest o advances.follows).safely advance advances.sound).result ran'
      have height : s'.growing.length = s.growing.length := congrArg List.length advances.continues.growing
      obtain ⟨inv', first⟩ := parts _ _ _ _ _ part here sound inv ran
      obtain ⟨inv'', second⟩ := ih o advances.follows advances.sound inv' ran'
      refine ⟨inv'', fun unread u later known => ?_⟩
      obtain ⟨fuel₁, v, again, alike₁⟩ := first (continues.2.2.unread unread) u later
        (before u _ _ continues.2.2 known)
      obtain ⟨fuel₂, w, again', alike₂⟩ := second (height ▸ unread) v (alike₁.sound later) (alike v u _ alike₁ known)
      refine ⟨max fuel₁ fuel₂, w, fun more enough => ?_, alike₂.trans alike₁⟩
      have le := Nat.max_le.1 enough
      simp only [Grammar.run_mono le.1 again, ok_bind]
      exact again' more le.2

theorem Runner.leftRecursive_remembers {body : Runner} {r : Nat} {rule : Rule} (found : g.rules[r]? = some rule)
    (mode : rule.mode = .leftRecursive) (plain : st.plain) (closed : st.closed) (fits : c.Fits st)
    (sound : s.Sound g st) (title : String)
    (pass : ∀ s : Session, s.Sound g st → Safely (g.Advances st c.index s) (body c s))
    (ran : leftRecursive (.rule r) title body c s = .ok (o, t)) (unread : t.readsBelow s.growing.length = false) :
    t.memo.lookup ⟨.rule r, c.index⟩ = some (.outcome o) := by
  cases inFlight : s.growing.lookup ⟨.rule r, c.index⟩ with
  | some growth =>
      rw [leftRecursive_seed title body inFlight] at ran
      cases ran
      have inside := (sound.growing _ growth inFlight).depth
      rw [Session.readsBelow_reread, decide_eq_true inside, Bool.or_true] at unread
      cases unread
  | none =>
      cases known : (s.memo.lookup ⟨.rule r, c.index⟩).bind (·.outcome? c.context.isSome) with
      | some o' =>
          obtain ⟨t', alike, ran'⟩ := leftRecursive_hit title body inFlight known
          rw [ran'] at ran
          cases ran
          obtain ⟨entry, found', read⟩ := Option.bind_eq_some_iff.1 known
          obtain ⟨o', rfl, read', -⟩ := sound.readable found' plain closed fits
          rw [read'] at read
          cases read
          rw [alike.memo]
          exact found'
      | none =>
          obtain ⟨before, rest, remains, -, -⟩ := fits.remaining
          obtain ⟨start, alike, grows⟩ := leftRecursive_grow title remains inFlight known
          rw [grows] at ran
          obtain ⟨⟨o', t'⟩, grown, same⟩ := bind_eq_ok.1 ran
          cases same
          obtain ⟨-, sound', above⟩ :=
            (grown_safely found mode fits sound inFlight known pass alike title rest _ _).result grown
          obtain ⟨growth, top⟩ := above.lookup
          rw [(Session.kept_unread unread).2, Session.lookup_remember, if_pos]
          exact ⟨rfl, sound'.apart plain closed _ growth top⟩

namespace Grammar

theorem settled_of_known {r : Nat} {rule : Rule} (found : g.rules[r]? = some rule)
    (mode : rule.mode = .leftRecursive) (plain : st.plain) (closed : st.closed) (fits : c.Fits st)
    (known : memo.lookup ⟨.rule r, c.index⟩ = some (.outcome o)) : g.Settled st memo (.rule r) c o := by
  intro u sound knows
  have known' := knows _ _ ⟨r, rule, rfl, found, mode⟩ known
  have idle : u.growing.lookup ⟨.rule r, c.index⟩ = none := by
    refine Option.eq_none_iff_forall_not_mem.2 fun growth inFlight => ?_
    rw [sound.apart plain closed _ growth inFlight] at known'
    cases known'
  obtain ⟨o', same, read, -⟩ := sound.readable known' plain closed fits
  cases same
  have hit : (u.memo.lookup ⟨.rule r, c.index⟩).bind (·.outcome? c.context.isSome) = some o := by
    rw [known', Option.bind_some, read]
  obtain ⟨t, alike, ran⟩ := Runner.leftRecursive_hit rule.title (g.run 0 rule.body) idle hit
  exact ⟨1, t, by rw [run_leftRecursive found 0 mode]; exact ran, alike⟩

/-- An outcome is settled if no seed of a rule in flight was read for it. -/
theorem run_settled (memoFree : g.MemoFree) (plain : st.plain) (closed : st.closed) {fuel : Nat} {e : Expr}
    (free : g.InterceptFree e) (fits : c.Fits st) (sound : s.Sound g st) (ran : g.run fuel e c s = .ok (o, t))
    (unread : t.readsBelow s.growing.length = false) : g.Settled st t.memo e c o := by
  induction fuel, e, free using InterceptFree.induct generalizing c s o t with
  | zero e free => cases ran
  | composite fuel e free composite ih =>
      intro u later knows
      have orderly := e.routine_disciplined composite fits (Expr.description g.rules) fuel
      rw [g.run_composite composite] at ran
      have repeats := orderly.repeats (I := fun _ => True) (K := Session.Knows g)
        (fun p part _ => free.part part) (fun _ _ _ => trivial) (fun _ _ _ alike known => known.alike alike)
        (fun _ _ _ continues known => known.before continues)
        (fun p d s o t part here sound _ ran => ⟨trivial, fun unread => ih p part here.fits sound ran unread⟩)
        sound trivial ran
      obtain ⟨fuel', u', again, alike⟩ := repeats.2 unread u later knows
      -- the loops of the routine may need more fuel than its parts, and the other way round
      refine ⟨max fuel fuel' + 1, u', ?_, alike⟩
      rw [g.run_composite composite]
      exact e.routine_below _ (fun e c s => .refl _) (Nat.le_max_left fuel fuel') c u _
        (again _ (Nat.le_max_right fuel fuel'))
  | missing fuel r free found =>
      obtain ⟨failed, rfl⟩ := (run_missing_eq_ok fuel found).1 ran
      exact fun u _ _ => ⟨1, u, (run_missing_eq_ok 0 found).2 ⟨failed, rfl⟩, .refl u⟩
  | plain fuel r rule free found mode ih =>
      rw [run_plain found fuel mode] at ran
      intro u later knows
      obtain ⟨fuel', u', again, alike⟩ := ih fits sound ran unread u later knows
      exact ⟨fuel' + 1, u', by rw [run_plain found fuel' mode]; exact again, alike⟩
  | memo fuel r rule free found mode => exact absurd mode (memoFree r rule found)
  | leftRecursive fuel r rule free found mode =>
      refine settled_of_known found mode plain closed fits ?_
      rw [run_leftRecursive found fuel mode] at ran
      exact Runner.leftRecursive_remembers found mode plain closed fits sound rule.title
        (fun s sound => run_advances fuel rule.body (fun _ => free.body found) fits sound) ran unread

end Grammar
end ParseEngine
