import ParseEngine.Proofs.Rule

namespace ParseEngine

def Safely {α : Type} (P : α → Prop) (x : Except Halt α) : Prop :=
  x = .error .outOfFuel ∨ ∃ a, x = .ok a ∧ P a

namespace Safely
variable {α β : Type} {P : α → Prop} {Q : β → Prop} {x : Except Halt α}

theorem ok {a : α} (result : P a) : Safely P (.ok a) :=
  .inr ⟨a, rfl, result⟩

theorem bind {f : α → Except Halt β} (first : Safely P x) (second : ∀ a, P a → Safely Q (f a)) :
    Safely Q (x >>= f) := by
  rcases first with rfl | ⟨a, rfl, result⟩
  · exact .inl rfl
  · exact second a result

theorem weaken {P' : α → Prop} (safely : Safely P x) (imp : ∀ a, P a → P' a) : Safely P' x := by
  rcases safely with spent | ⟨a, given, result⟩
  · exact .inl spent
  · exact .inr ⟨a, given, imp a result⟩

theorem result {a : α} (safely : Safely P x) (given : x = .ok a) : P a := by
  rcases safely with spent | ⟨b, given', result⟩
  · rw [spent] at given
    cases given
  · rw [given'] at given
    cases given
    exact result

end Safely

/-- A run from an index advances: its outcome follows the index, and the session it leaves goes on soundly from
the session it had. -/
structure Grammar.Advances (g : Grammar) (st : Setting) (start : Nat) (s : Session) (r : Outcome × Session) :
    Prop where
  follows : r.1.Follows st start
  sound : r.2.Sound g st
  continues : s.Continues r.2

variable {g : Grammar} {st : Setting} {start : Nat} {c : Cursor} {s t : Session} {o : Outcome}

namespace Grammar.Advances

theorem after (continues : s.Continues t) {r : Outcome × Session} (advances : g.Advances st start t r) :
    g.Advances st start s r :=
  ⟨advances.follows, advances.sound, continues.trans advances.continues⟩

theorem alike (follows : o.Follows st start) (sound : s.Sound g st) (alike : t.Alike s) :
    g.Advances st start s (o, t) :=
  ⟨follows, alike.sound sound, alike.continues⟩

theorem annotate (advances : g.Advances st start s (o, t)) (f : Journal → Journal) :
    g.Advances st start s (o, t.annotate f) :=
  ⟨advances.follows, (Session.Alike.annotate t f).sound advances.sound,
    advances.continues.trans (.annotate t f)⟩

end Grammar.Advances

theorem Routine.Orderly.safely {D : Discipline} {α : Type} {P : α → Prop} {R : Routine α}
    (orderly : Orderly D P R) {run : Engine}
    (parts : ∀ e c s, D.parts e → D.Allows c → s.Sound g D.setting →
      Safely (g.Advances D.setting c.index s) (run e c s)) (sound : s.Sound g D.setting) :
    Safely (fun r => P r.1 ∧ r.2.Sound g D.setting ∧ s.Continues r.2) (R run s) := by
  induction orderly generalizing s with
  | done result => exact .ok ⟨result, sound, .refl s⟩
  | exhausted lossy => exact .inl rfl
  | note f _ ih =>
      refine (ih (sound.congr (t := s.annotate f) rfl rfl)).weaken fun r reached => ?_
      obtain ⟨result, sound', continues⟩ := reached
      exact ⟨result, sound', (Session.Continues.annotate s f).trans continues⟩
  | ask part here _ ih =>
      refine (parts _ _ _ part here sound).bind fun r advances => ?_
      refine (ih r.1 advances.follows advances.sound).weaken fun r' reached => ?_
      obtain ⟨result, sound', continues⟩ := reached
      exact ⟨result, sound', advances.continues.trans continues⟩

namespace Runner
variable {p body : Runner} {r : Nat} {rule : Rule}

theorem hit_follows (sound : s.Sound g st) {id : ParserId} {contextual : Bool}
    (hit : (s.memo.lookup ⟨id, c.index⟩).bind (·.outcome? contextual) = some o) : o.Follows st c.index := by
  obtain ⟨entry, known, read⟩ := Option.bind_eq_some_iff.1 hit
  rw [Entry.eq_of_outcome? read] at known
  exact sound.memo _ _ known

theorem miss_unknown (sound : s.Sound g st) (fits : c.Fits st) (plain : st.plain) (closed : st.closed)
    {id : ParserId} (miss : (s.memo.lookup ⟨id, c.index⟩).bind (·.outcome? c.context.isSome) = none) :
    s.memo.lookup ⟨id, c.index⟩ = none := by
  cases known : s.memo.lookup ⟨id, c.index⟩ with
  | none => rfl
  | some entry =>
      obtain ⟨o, -, read, -⟩ := sound.readable known plain closed fits
      rw [known, Option.bind_some, read] at miss
      cases miss

theorem firstSeed_follows (fits : c.Fits st) (title : String) (rest : List Char) :
    (firstSeed title c rest).Follows st c.index :=
  ⟨fits, Nat.le_refl _⟩

theorem memo_advances (found : g.rules[r]? = some rule) (mode : rule.mode = .memo) (sound : s.Sound g st)
    (body : ∀ s : Session, s.Sound g st → Safely (g.Advances st c.index s) (p c s)) :
    Safely (g.Advances st c.index s) (memo (.rule r) p c s) := by
  cases known : (s.memo.lookup ⟨.rule r, c.index⟩).bind (·.outcome? c.context.isSome) with
  | some o =>
      obtain ⟨t, alike, ran⟩ := memo_hit p known
      rw [ran]
      exact .ok (.alike (hit_follows sound known) sound alike)
  | none =>
      obtain ⟨note, ran⟩ := memo_miss p known
      rw [ran]
      refine (body s.missed (sound.congr rfl rfl)).bind fun result advances => .ok ?_
      have continues : s.Continues (s.kept result.2 ⟨.rule r, c.index⟩ result.1) :=
        Session.kept_continues advances.continues.options advances.continues.growing advances.continues.memo
      -- a memoized rule is never in flight
      have idle : result.2.growing.lookup ⟨.rule r, c.index⟩ = none := by
        refine Option.eq_none_iff_forall_not_mem.2 fun growth inFlight => ?_
        obtain ⟨r', rule', same, found', mode'⟩ := (advances.sound.growing _ growth inFlight).rule
        cases same
        rw [found] at found'
        cases found'
        rw [mode] at mode'
        cases mode'
      have sound' : (s.kept result.2 ⟨.rule r, c.index⟩ result.1).Sound g st :=
        advances.sound.kept (fun _ _ => idle) advances.follows
      exact ⟨advances.follows, (Session.Alike.annotate _ _).sound sound', continues.trans (.annotate _ _)⟩

theorem growFrom_safely {id : ParserId} {cap : Nat} (idle : s.growing.lookup ⟨id, c.index⟩ = none)
    (pass : ∀ s : Session, s.Sound g st → Safely (g.Advances st c.index s) (body c s)) (left grown : Nat)
    (sound : t.Sound g st) (above : s.Above ⟨id, c.index⟩ t) :
    Safely (fun r => r.1.Follows st c.index ∧ r.2.Sound g st ∧ s.Above ⟨id, c.index⟩ r.2)
      (growFrom id cap body left grown c t) := by
  induction left generalizing grown t with
  | zero => exact .inl rfl
  | succ left ih =>
      rw [growFrom_succ]
      refine (pass t.counted (sound.congr rfl rfl)).bind fun result advances => ?_
      have above' := above.continues (t.counted_continues.trans advances.continues)
      obtain ⟨growth, top⟩ := above'.growing
      have inFlight : result.2.growing.lookup ⟨id, c.index⟩ = some growth := by rw [top, List.lookup_cons_self]
      rcases turn_cases inFlight cap grown result.1 with ⟨-, turned⟩ | ⟨-, -, note, turned⟩ | ⟨-, -, note, turned⟩
      · rw [turned, Turn.follow]
        refine .ok ⟨?_, advances.sound, above'⟩
        dsimp only
        split
        · exact advances.follows
        · exact (advances.sound.growing _ growth inFlight).seed
      · rw [turned, Turn.follow]
        exact .ok ⟨advances.follows, (Session.Alike.annotate _ _).sound advances.sound,
          above'.continues (.annotate _ _)⟩
      · rw [turned, Turn.follow]
        have noted := (Session.Alike.annotate result.2 note).sound advances.sound
        have above'' := above'.continues (.annotate _ note)
        exact ih _ (noted.grow top idle advances.follows) (above''.grow idle result.1)

theorem growFrom_keeps {I : Session → Prop} {id : ParserId} {cap left grown : Nat}
    (idle : s.growing.lookup ⟨id, c.index⟩ = none)
    (pass : ∀ s : Session, s.Sound g st → Safely (g.Advances st c.index s) (body c s))
    (passKeeps : ∀ (t : Session) o u, t.Sound g st → I t → body c t.counted = .ok (o, u) → I u)
    (noteKeeps : ∀ (t : Session) f, I t → I (t.annotate f))
    (growKeeps : ∀ (t : Session) o, s.Above ⟨id, c.index⟩ t → Outcome.Follows st c.index o → I t →
      I (t.grow ⟨id, c.index⟩ o))
    (sound : t.Sound g st) (above : s.Above ⟨id, c.index⟩ t) (holds : I t)
    {u : Session} (ran : growFrom id cap body left grown c t = .ok (o, u)) : I u := by
  induction left generalizing grown t with
  | zero => cases ran
  | succ left ih =>
      rw [growFrom_succ] at ran
      obtain ⟨⟨o', v⟩, passed, ran⟩ := bind_eq_ok.1 ran
      have advances := (pass t.counted (sound.congr rfl rfl)).result passed
      have holds' := passKeeps t o' v sound holds passed
      have above' := above.continues (t.counted_continues.trans advances.continues)
      obtain ⟨growth, top⟩ := above'.growing
      have inFlight : v.growing.lookup ⟨id, c.index⟩ = some growth := by rw [top, List.lookup_cons_self]
      rcases turn_cases inFlight cap grown o' with ⟨-, turned⟩ | ⟨-, -, note, turned⟩ | ⟨-, -, note, turned⟩
      · simp only [turned, Turn.follow] at ran
        cases ran
        exact holds'
      · simp only [turned, Turn.follow] at ran
        cases ran
        exact noteKeeps v note holds'
      · simp only [turned, Turn.follow] at ran
        have noted := (Session.Alike.annotate v note).sound advances.sound
        have above'' := above'.continues (.annotate v note)
        exact ih (noted.grow top idle advances.follows) (above''.grow idle o')
          (growKeeps _ o' above'' advances.follows (noteKeeps v note holds')) ran

variable (st) in
/-- Two growths of one seed take the same turns, as long as their passes give the same from sessions that are alike in
some way `A`, or else the rest of the second growth ends in a session that is spoilt in some way `B`. -/
theorem growFrom_agrees {A : Session → Session → Prop} {B : Session → Prop} {id : ParserId} {cap left grown : Nat}
    {body' : Runner}
    (seeds : ∀ s t, A s t → ∃ growth growth', s.growing.lookup ⟨id, c.index⟩ = some growth ∧
      t.growing.lookup ⟨id, c.index⟩ = some growth' ∧ growth'.seed = growth.seed ∧ growth'.phase = growth.phase)
    (passes : ∀ s t o u o' v, A s t → body c s.counted = .ok (o, u) → body' c t.counted = .ok (o', v) →
      (∀ left grown o₁ w, (turn id cap grown c o' v).follow (fun grown => growFrom id cap body' left grown c) =
        .ok (o₁, w) → B w) ∨ o = o' ∧ A u v ∧ o.Follows st c.index)
    (notes : ∀ s t f f', A s t → A (s.annotate f) (t.annotate f'))
    (grows : ∀ s t o, A s t → Outcome.Follows st c.index o → A (s.grow ⟨id, c.index⟩ o) (t.grow ⟨id, c.index⟩ o))
    {s s' t t' : Session} {o o' : Outcome} (alike : A s t) (ran : growFrom id cap body left grown c s = .ok (o, s'))
    (ran' : growFrom id cap body' left grown c t = .ok (o', t')) : B t' ∨ o = o' ∧ A s' t' := by
  induction left generalizing grown s t with
  | zero => cases ran
  | succ left ih =>
      rw [growFrom_succ] at ran ran'
      obtain ⟨⟨pass, u⟩, passed, ran⟩ := bind_eq_ok.1 ran
      obtain ⟨⟨pass', v⟩, passed', ran'⟩ := bind_eq_ok.1 ran'
      rcases passes _ _ _ _ _ _ alike passed passed' with spoils | ⟨rfl, alike, follows⟩
      · exact .inl (spoils left grown o' t' ran')
      · obtain ⟨growth, growth', top, top', sameSeed, samePhase⟩ := seeds u v alike
        have sameNext : growth'.next grown = growth.next grown := by rw [Growth.next, Growth.next, samePhase]
        rcases turn_cases top cap grown pass with
          ⟨worse, turned⟩ | ⟨better, reached, note, turned⟩ | ⟨better, short, note, turned⟩
        · have turned' := turn_stops top' (sameSeed ▸ worse) cap grown
          simp only [turned, turned', Turn.follow, sameSeed, samePhase] at ran ran'
          cases ran
          cases ran'
          exact .inr ⟨rfl, alike⟩
        · obtain ⟨note', turned'⟩ := turn_capped top' (sameSeed ▸ better) (sameNext ▸ reached)
          simp only [turned, turned', Turn.follow] at ran ran'
          cases ran
          cases ran'
          exact .inr ⟨rfl, notes u v note note' alike⟩
        · obtain ⟨note', turned'⟩ := turn_goesOn top' (sameSeed ▸ better) (sameNext ▸ short)
          simp only [turned, turned', Turn.follow, sameNext] at ran ran'
          exact ih (grows _ _ pass (notes u v note note' alike) follows) ran ran'

theorem grown_safely (found : g.rules[r]? = some rule) (mode : rule.mode = .leftRecursive) (fits : c.Fits st)
    (sound : s.Sound g st) (idle : s.growing.lookup ⟨.rule r, c.index⟩ = none)
    (miss : (s.memo.lookup ⟨.rule r, c.index⟩).bind (·.outcome? c.context.isSome) = none)
    (pass : ∀ s : Session, s.Sound g st → Safely (g.Advances st c.index s) (body c s))
    {start : Session} (alike : start.Alike s.untracked) (title : String) (rest : List Char) (cap left : Nat) :
    Safely (fun r' => r'.1.Follows st c.index ∧ r'.2.Sound g st ∧ s.Above ⟨.rule r, c.index⟩ r'.2)
      (growFrom (.rule r) cap body left 0 c (start.begin ⟨.rule r, c.index⟩ (firstSeed title c rest))) := by
  have sound' : start.Sound g st := alike.sound (sound.congr rfl rfl)
  have unknown (plain : st.plain) (closed : st.closed) : start.memo.lookup ⟨.rule r, c.index⟩ = none := by
    rw [alike.memo]
    exact miss_unknown sound fits plain closed miss
  have begun := sound'.begin ⟨r, rule, rfl, found, mode⟩ unknown (firstSeed_follows fits title rest)
  exact growFrom_safely idle pass _ _ begun (.begin alike _ _)

theorem leftRecursive_advances (found : g.rules[r]? = some rule) (mode : rule.mode = .leftRecursive)
    (fits : c.Fits st) (sound : s.Sound g st) (title : String)
    (pass : ∀ s : Session, s.Sound g st → Safely (g.Advances st c.index s) (body c s)) :
    Safely (g.Advances st c.index s) (leftRecursive (.rule r) title body c s) := by
  cases inFlight : s.growing.lookup ⟨.rule r, c.index⟩ with
  | some growth =>
      rw [leftRecursive_seed title body inFlight]
      exact .ok ⟨(sound.growing _ growth inFlight).seed, sound.congr rfl rfl, s.reread_continues growth⟩
  | none =>
      cases known : (s.memo.lookup ⟨.rule r, c.index⟩).bind (·.outcome? c.context.isSome) with
      | some o =>
          obtain ⟨t, alike, ran⟩ := leftRecursive_hit title body inFlight known
          rw [ran]
          exact .ok (.alike (hit_follows sound known) sound alike)
      | none =>
          obtain ⟨before, rest, remains, -, -⟩ := fits.remaining
          obtain ⟨start, alike, grows⟩ := leftRecursive_grow title remains inFlight known
          rw [grows]
          refine (grown_safely found mode fits sound inFlight known pass alike title rest _ _).bind
            fun result grown => .ok ?_
          obtain ⟨follows, sound', above⟩ := grown
          have popped := above.finish inFlight
          obtain ⟨growth, top⟩ := above.growing
          refine ⟨follows, ?_, Session.kept_continues above.options popped above.memo⟩
          refine (sound'.finish sound top inFlight).kept (fun _ _ => ?_) follows
          rw [popped]
          exact inFlight

theorem failHere_advances (message : String) (fits : c.Fits st) (sound : s.Sound g st) :
    Safely (g.Advances st c.index s) (failHere message c s) := by
  obtain ⟨o, failed, follows⟩ := Outcome.failAt_follows message fits
  rw [failHere, failed]
  exact .ok (.alike follows sound (.refl s))

/-- Interceptors do not move the cursor. They may plant entries, but only at the index where they run. -/
theorem intercept_advances (identify : String → ParserId) (interceptor : Interceptor) (fits : c.Fits st)
    (opened : ¬st.closed) (sound : s.Sound g st)
    (part : ∀ s : Session, s.Sound g st → Safely (g.Advances st c.index s) (p c s)) :
    Safely (g.Advances st c.index s) (intercept identify interceptor p c s) := by
  have annotated (s : Session) (sound : s.Sound g st) (f : Journal → Journal) :
      Safely (g.Advances st c.index s) (p c (s.annotate f)) :=
    (part _ ((Session.Alike.annotate s f).sound sound)).weaken fun _ advances => advances.after (.annotate s f)
  obtain ⟨how, intercepts, same⟩ := intercept_eq identify interceptor c s
  rw [same]
  cases intercepts with
  | noted f after =>
      exact (annotated s sound f).bind fun r advances => .ok (advances.annotate (after r.1 r.2))
  | refused message f after =>
      refine (failHere_advances message fits ((Session.Alike.annotate s f).sound sound)).bind fun r advances => .ok ?_
      exact (advances.after (.annotate s f)).annotate after
  | tracked after =>
      refine (part s.untracked (sound.congr rfl rfl)).bind fun r advances => .ok ?_
      have resumed : g.Advances st c.index s (r.1, s.resume r.2) :=
        ⟨advances.follows, advances.sound.congr rfl rfl, advances.continues.resume⟩
      exact resumed.annotate (after r.1 r.2)
  | repeated after =>
      refine (part s sound).bind fun r advances => ?_
      refine (part r.2 advances.sound).bind fun r' advances' => .ok ?_
      exact (advances'.after advances.continues).annotate (after r.1 r'.1)
  | apart =>
      refine (part _ (.fresh {} s.journal)).bind fun r advances => .ok ?_
      exact .alike advances.follows sound ⟨rfl, rfl, rfl, rfl, rfl, rfl⟩
  | rebuilt =>
      refine (part s sound).bind fun r advances => ?_
      obtain ⟨o, t⟩ := r
      cases o with
      | success v d => exact .ok advances
      | failure message d found =>
          refine (failHere_advances message advances.follows.fits advances.sound).weaken fun r' advances' => ?_
          exact ⟨advances'.follows.mono advances.follows.le, advances'.sound,
            advances.continues.trans advances'.continues⟩
  | mapped f =>
      refine (part s sound).bind fun r advances => .ok ?_
      exact ⟨advances.follows.map f, advances.sound, advances.continues⟩
  | @read name label growth inFlight f =>
      refine (annotated (s.reread growth) (sound.congr rfl rfl) f).weaken fun r advances => ?_
      exact advances.after (s.reread_continues growth)
  | @planted name label v asByte f =>
      let entry := if asByte then Entry.byte v.toByte c else .outcome (.success v c)
      have follows : entry.Follows st c.index := by
        unfold entry
        split
        · exact opened
        · exact ⟨fits, Nat.le_refl _⟩
      let key : Key := ⟨identify name, c.index⟩
      have planted : (s.remember key entry).2.Sound g st :=
        sound.remember follows fun _ closed => absurd closed opened
      refine (annotated (s.remember key entry).2 planted f).weaken fun r advances => ?_
      exact advances.after (s.remember_continues key entry)

end Runner

namespace Grammar

theorem run_advances (fuel : Nat) (e : Expr) (free : st.closed → g.InterceptFree e) (fits : c.Fits st)
    (sound : s.Sound g st) : Safely (g.Advances st c.index s) (g.run fuel e c s) := by
  induction fuel generalizing e c s with
  | zero => exact .inl rfl
  | succ fuel ih =>
      by_cases composite : e.isComposite = true
      · rw [g.run_composite composite]
        have orderly := e.routine_disciplined composite fits (Expr.description g.rules) fuel
        refine (orderly.safely (fun p d t part here sound' => ?_) sound).weaken
          fun r reached => ⟨reached.1, reached.2.1, reached.2.2⟩
        exact ih p (fun closed => (free closed).part part) here.fits sound'
      · cases e with
        | rule r =>
            cases found : g.rules[r]? with
            | none =>
                obtain ⟨o, failed, follows⟩ := Prim.orphan.run_follows fits
                simp only [run_missing fuel found, failed, ok_bind]
                exact .ok (.alike follows sound (.refl s))
            | some rule =>
                have body (s : Session) (sound : s.Sound g st) := ih rule.body
                  (fun closed => (free closed).body found) fits sound
                cases mode : rule.mode with
                | plain =>
                    rw [run_plain found fuel mode]
                    exact body s sound
                | memo =>
                    rw [run_memo found fuel mode]
                    exact Runner.memo_advances found mode sound body
                | leftRecursive =>
                    rw [run_leftRecursive found fuel mode]
                    exact Runner.leftRecursive_advances found mode fits sound rule.title body
        | intercept interceptor p =>
            have opened : ¬st.closed := fun closed => free closed interceptor p (.self _)
            exact Runner.intercept_advances g.identify interceptor fits opened sound fun s sound =>
              ih p (fun closed => absurd closed opened) fits sound
        | _ => exact absurd rfl composite

/-- The sessions that runs on a text pass through: fresh ones, those that a run leaves, and those in which the
body of a rule starts. -/
inductive Reachable (g : Grammar) (st : Setting) : Session → Prop
  | fresh (options : Options) (journal : Journal) : Reachable g st (.fresh options journal)
  | noted {s : Session} (before : Reachable g st s) (f : Journal → Journal) : Reachable g st (s.annotate f)
  | ran {s t : Session} {e : Expr} {c : Cursor} {fuel : Nat} {o : Outcome} (before : Reachable g st s)
      (free : st.closed → g.InterceptFree e) (fits : c.Fits st) (ran : g.run fuel e c s = .ok (o, t)) :
      Reachable g st t
  | missed {s : Session} (before : Reachable g st s) : Reachable g st s.missed
  | seeded {s : Session} {r : Nat} {rule : Rule} {c : Cursor} {rest : List Char} (before : Reachable g st s)
      (found : g.rules[r]? = some rule) (mode : rule.mode = .leftRecursive) (fits : c.Fits st)
      (remains : c.remaining = .ok rest) (idle : s.growing.lookup ⟨.rule r, c.index⟩ = none)
      (miss : (s.memo.lookup ⟨.rule r, c.index⟩).bind (·.outcome? c.context.isSome) = none) :
      Reachable g st (s.untracked.begin ⟨.rule r, c.index⟩ (Runner.firstSeed rule.title c rest)).counted
  | grown {s t : Session} {r : Nat} {rule : Rule} {c : Cursor} {fuel : Nat} {pass : Outcome} {growth : Growth}
      {base : List (Key × Growth)} (before : Reachable g st s) (free : st.closed → g.InterceptFree (.rule r))
      (found : g.rules[r]? = some rule) (fits : c.Fits st)
      (top : s.growing = (⟨.rule r, c.index⟩, growth) :: base)
      (idle : base.lookup ⟨.rule r, c.index⟩ = none) (ran : g.run fuel rule.body c s = .ok (pass, t))
      (improves : Runner.improves pass growth.seed) : Reachable g st (t.grow ⟨.rule r, c.index⟩ pass).counted

theorem Reachable.sound (reachable : g.Reachable st s) : s.Sound g st := by
  induction reachable with
  | fresh options journal => exact .fresh options journal
  | noted _ f ih => exact (Session.Alike.annotate _ f).sound ih
  | ran _ free fits ran ih => exact ((run_advances _ _ free fits ih).result ran).sound
  | missed _ ih => exact ih.congr rfl rfl
  | @seeded s r rule c rest _ found mode fits remains idle miss ih =>
      have untracked := ih.congr (t := Session.untracked _) rfl rfl
      have begun := untracked.begin ⟨_, _, rfl, found, mode⟩
        (fun plain closed => Runner.miss_unknown ih fits plain closed miss)
        (Runner.firstSeed_follows fits rule.title rest)
      exact begun.congr rfl rfl
  | grown _ free found fits top idle ran _ ih =>
      have advances := (run_advances _ _ (fun closed => (free closed).body found) fits ih).result ran
      have top' := advances.continues.growing.trans top
      exact (advances.sound.grow top' idle advances.follows).congr rfl rfl

/-- A run that starts on a character boundary, in any session of the same text, never leaves the text and never
reads inside a character. If it returns, its outcome stands on a character boundary of the same text at or after
the start, be it a success or a failure. -/
theorem run_progress (g : Grammar) (e : Expr) (c : Cursor) (s : Session) (fuel : Nat)
    (boundary : (Text.dropBytes? c.index c.text).isSome) (reachable : g.Reachable ⟨c.text, false, false⟩ s) :
    g.run fuel e c s ≠ .error .misplaced ∧
      ∀ o t, g.run fuel e c s = .ok (o, t) → o.cursor.text = c.text ∧
        (Text.dropBytes? o.index c.text).isSome ∧ c.index ≤ o.index ∧ o.index ≤ c.length := by
  have fits : c.Fits ⟨c.text, false, false⟩ := ⟨rfl, boundary, fun plain => absurd plain Bool.false_ne_true⟩
  have safely := run_advances fuel e (fun closed => absurd closed Bool.false_ne_true) fits reachable.sound
  refine ⟨fun misplaced => ?_, fun o t ran => ?_⟩
  · rcases safely with spent | ⟨r, ran, -⟩
    · rw [spent] at misplaced
      cases misplaced
    · rw [ran] at misplaced
      cases misplaced
  · have follows := (safely.result ran).follows
    exact ⟨follows.fits.text, follows.fits.boundary, follows.le, follows.fits.index_le⟩

theorem run_progress_after_wide_character :
    let g : Grammar := { rules := [
      ⟨.leftRecursive, "tail", .orElse (.pair (.rule 0) (.prim .anyChar)) (.prim .digit)⟩] }
    let c : Cursor := ⟨['é', '7', 'ß'], 2, none⟩
    g.run 9 (.rule 0) c (.fresh {} {}) ≠ .error .misplaced ∧
      ∀ o t, g.run 9 (.rule 0) c (.fresh {} {}) = .ok (o, t) → o.cursor.text = c.text ∧
        (Text.dropBytes? o.index c.text).isSome ∧ c.index ≤ o.index ∧ o.index ≤ c.length :=
  run_progress _ _ _ _ _ (by decide) (.fresh _ _)

end Grammar
end ParseEngine
