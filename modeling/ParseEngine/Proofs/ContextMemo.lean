import ParseEngine.Proofs.Calling
import ParseEngine.Proofs.Transparency

namespace ParseEngine

/-- Calls rules as their modes say, but refuses the calls of memoized rules that are not allowed. -/
def Calling.guarded (allowed : Nat → Cursor → Bool) : Calling := fun r rule body c s =>
  if rule.mode = .memo ∧ allowed r c = false then .error .outOfFuel
  else Runner.inMode (.rule r) rule.title body rule.mode c s

def Grammar.SeedFree (g : Grammar) (e : Expr) : Prop :=
  ∀ r rule, g.Uses e (.rule r) → g.rules[r]? = some rule → rule.mode ≠ .leftRecursive

def OneContext (allowed : Nat → Cursor → Bool) : Prop :=
  ∀ r c d, allowed r c = true → allowed r d = true → c.index = d.index → c.context = d.context

variable {g : Grammar} {st : Setting} {allowed : Nat → Cursor → Bool} {e : Expr} {r : Nat} {rule : Rule} {c : Cursor}
  {s s' t t' u : Session} {o o' : Outcome} {fuel fuel' : Nat}

theorem Calling.guarded_below {p p' : Runner} (below : p.Below p') (r : Nat) (rule : Rule) :
    (Calling.guarded allowed r rule p).Below (.inMode (.rule r) rule.title p' rule.mode) := by
  intro c s
  unfold Calling.guarded
  split
  · exact .exhausted _
  · cases rule.mode with
    | plain => exact below c s
    | memo => exact Runner.memo_below _ below c s
    | leftRecursive => exact Runner.leftRecursive_below _ _ below c s

theorem Calling.guarded_ok {p : Runner} (mode : rule.mode = .memo)
    (ran : Calling.guarded allowed r rule p c s = .ok (o, t)) :
    allowed r c = true ∧ Runner.memo (.rule r) p c s = .ok (o, t) := by
  unfold Calling.guarded at ran
  simp only [mode, true_and, Runner.inMode] at ran
  split at ran
  · cases ran
  · rename_i may
    exact ⟨by simpa using may, ran⟩

namespace Grammar

theorem guarded_run (ran : g.runCalling (.guarded allowed) fuel e c s = .ok (o, t)) : g.run fuel e c s = .ok (o, t) :=
  runCalling_below_run (fun r rule _ _ below => Calling.guarded_below below r rule) e c s _ ran

theorem SeedFree.part {p : Expr} (free : g.SeedFree e) (part : p.Part e) : g.SeedFree p :=
  fun r rule uses found => free r rule (.part part uses) found

theorem SeedFree.body (free : g.SeedFree (.rule r)) (found : g.rules[r]? = some rule) : g.SeedFree rule.body :=
  fun r' rule' uses found' => free r' rule' (.body found uses) found'

theorem SeedFree.of_modes (modes : g.rules.all (·.mode != .leftRecursive)) : g.SeedFree e := by
  intro r rule _ found
  simpa using List.all_eq_true.1 modes rule (List.mem_of_getElem? found)

def Only (g : Grammar) (st : Setting) (e : Expr) (c : Cursor) (o : Outcome) : Prop :=
  ∀ fuel t o' t', t.Sound g.withoutMemo st → g.withoutMemo.run fuel e c t = .ok (o', t') → o = o'

def Faithful (g : Grammar) (st : Setting) (allowed : Nat → Cursor → Bool) (s : Session) : Prop :=
  ∀ r rule c o, g.rules[r]? = some rule → rule.mode = .memo → c.Fits st → allowed r c = true →
    s.memo.lookup ⟨.rule r, c.index⟩ = some (.outcome o) → g.Only st rule.body c o

theorem Faithful.of_memo (faithful : g.Faithful st allowed s) (same : t.memo = s.memo) :
    g.Faithful st allowed t := by
  intro r rule c o found mode fits may known
  rw [same] at known
  exact faithful r rule c o found mode fits may known

theorem Faithful.kept (faithful : g.Faithful st allowed u) (one : OneContext allowed) (fits : c.Fits st)
    (found : g.rules[r]? = some rule) (may : allowed r c = true) (only : g.Only st rule.body c o) :
    g.Faithful st allowed (s.kept u ⟨.rule r, c.index⟩ o) := by
  intro r' rule' d o' found' mode fits' may' known
  rw [Session.kept_memo] at known
  split at known
  · exact faithful r' rule' d o' found' mode fits' may' known
  · split at known
    · exact faithful r' rule' d o' found' mode fits' may' known
    · rw [List.lookup_cons] at known
      split at known
      · -- the rule is called at this index under this context only
        rename_i same
        obtain ⟨sameRule, sameIndex⟩ := Key.mk.inj (eq_of_beq same)
        cases sameRule
        rw [found] at found'
        cases found'
        cases known
        have context := one r c d may may' sameIndex.symm
        have same : d = c := by
          obtain ⟨text, index, _⟩ := d
          obtain ⟨text', index', _⟩ := c
          have texts : text = text' := fits'.text.trans fits.text.symm
          cases texts
          cases sameIndex
          cases context
          rfl
        exact same ▸ only
      · exact faithful r' rule' d o' found' mode fits' may' known

theorem guarded_memo {p : Runner} (one : OneContext allowed) (found : g.rules[r]? = some rule)
    (mode : rule.mode = .memo) (fits : c.Fits st) (sound : s.Sound g st) (faithful : g.Faithful st allowed s)
    (body : ∀ (s : Session) o t, s.Sound g st → g.Faithful st allowed s → p c s = .ok (o, t) →
      g.Faithful st allowed t ∧ g.Only st rule.body c o)
    (ran : Calling.guarded allowed r rule p c s = .ok (o, t)) :
    g.Faithful st allowed t ∧ g.Only st rule.body c o := by
  obtain ⟨may, ran⟩ := Calling.guarded_ok mode ran
  cases known : (s.memo.lookup ⟨.rule r, c.index⟩).bind (·.outcome? c.context.isSome) with
  | some o' =>
      obtain ⟨u, alike, hit⟩ := Runner.memo_hit p known
      rw [hit] at ran
      cases ran
      obtain ⟨entry, known', read⟩ := Option.bind_eq_some_iff.1 known
      rw [Entry.eq_of_outcome? read] at known'
      exact ⟨faithful.of_memo alike.memo, faithful r rule c o found mode fits may known'⟩
  | none =>
      obtain ⟨note, miss⟩ := Runner.memo_miss p known
      rw [miss] at ran
      obtain ⟨⟨o', u⟩, evaluated, result⟩ := bind_eq_ok.1 ran
      cases result
      obtain ⟨faithful', only⟩ := body s.missed o' u (sound.congr rfl rfl) (faithful.of_memo rfl) evaluated
      exact ⟨(faithful'.kept one fits found may only).of_memo rfl, only⟩

theorem Only.call (only : g.Only st rule.body c o) (found : g.rules[r]? = some rule)
    (mode : rule.mode ≠ .leftRecursive) : g.Only st (.rule r) c o := by
  intro fuel t o' t' sound ran
  have erased : g.withoutMemo.rules[r]? = some { rule with mode := .plain } := by
    cases modeIs : rule.mode with
    | plain =>
        rw [rules_withoutMemo_of_ne found (by simp [modeIs]), ← modeIs]
    | memo => exact rules_withoutMemo_of_memo found modeIs
    | leftRecursive => exact absurd modeIs mode
  cases fuel with
  | zero => cases ran
  | succ fuel =>
      rw [run_plain erased fuel rfl] at ran
      exact only fuel t o' t' sound ran

theorem guarded_composite (free : g.InterceptFree e) (composite : e.isComposite) (fits : c.Fits st)
    (sound : s.Sound g st) (faithful : g.Faithful st allowed s)
    (parts : ∀ p d s o t, p.Part e → d.Fits st → s.Sound g st → g.Faithful st allowed s →
      g.runCalling (.guarded allowed) fuel p d s = .ok (o, t) → g.Faithful st allowed t ∧ g.Only st p d o)
    (ran : g.runCalling (.guarded allowed) (fuel + 1) e c s = .ok (o, t)) :
    g.Faithful st allowed t ∧ g.Only st e c o := by
  have orderly := e.routine_disciplined composite fits (Expr.description g.rules)
  have advance (p : Expr) (d : Cursor) (s : Session) (o : Outcome) (t : Session) (part : p.Part e) (fits : d.Fits st)
      (sound : s.Sound g st) (ran : g.runCalling (.guarded allowed) fuel p d s = .ok (o, t)) :
      g.Advances st d.index s (o, t) :=
    (run_advances fuel p (fun _ => free.part part) fits sound).result (guarded_run ran)
  rw [runCalling_composite composite] at ran
  refine ⟨((orderly fuel).keeps (I := fun s => s.Sound g st ∧ g.Faithful st allowed s) ?_ ?_
    ⟨sound, faithful⟩ ran).2.2, ?_⟩
  · rintro s f ⟨sound, faithful⟩
    exact ⟨(Session.Alike.annotate s f).sound sound, faithful.of_memo rfl⟩
  · rintro p d s o t part here ⟨sound, faithful⟩ ran
    have advances := advance p d s o t part here.fits sound ran
    exact ⟨advances.follows, advances.sound, (parts p d s o t part here.fits sound faithful ran).1⟩
  · intro fuel' u o' u' soundRight ran'
    cases fuel' with
    | zero => cases ran'
    | succ fuel' =>
        rw [g.withoutMemo.run_composite composite, ← g.withoutMemo_description] at ran'
        -- the loops of both routines may go on as long as those of the longer one
        have ran := e.routine_below _ (fun e c s => .refl _) (Nat.le_max_left fuel fuel') c s _ ran
        have ran' := e.routine_below _ (fun e c s => .refl _) (Nat.le_max_right fuel fuel') c u _ ran'
        have agree := (orderly (max fuel fuel')).agrees (B := fun _ => False)
          (A := fun s t => (s.Sound g st ∧ g.Faithful st allowed s) ∧ t.Sound g.withoutMemo st)
          ?_ (fun _ _ => False.elim) ?_ (fun _ _ _ _ _ _ _ => False.elim) ⟨⟨sound, faithful⟩, soundRight⟩ ran ran'
        · exact (agree.resolve_left id).1
        · rintro s t f ⟨⟨sound, faithful⟩, soundRight⟩
          exact ⟨⟨(Session.Alike.annotate s f).sound sound, faithful.of_memo rfl⟩,
            (Session.Alike.annotate t f).sound soundRight⟩
        · rintro p d s t o s' o' t' part here ⟨⟨sound, faithful⟩, soundRight⟩ ran ran'
          have advances := advance p d s o s' part here.fits sound ran
          have advances' :=
            (run_advances fuel' p (fun _ => (free.part part).withoutMemo) here.fits soundRight).result ran'
          obtain ⟨faithful', only⟩ := parts p d s o s' part here.fits sound faithful ran
          exact ⟨advances'.follows, .inr ⟨only _ _ _ _ soundRight ran', ⟨advances.sound, faithful'⟩,
            advances'.sound⟩⟩

theorem guarded_faithful (one : OneContext allowed) (free : g.InterceptFree e) (seedFree : g.SeedFree e)
    (fits : c.Fits st) (sound : s.Sound g st) (faithful : g.Faithful st allowed s)
    (ran : g.runCalling (.guarded allowed) fuel e c s = .ok (o, t)) :
    g.Faithful st allowed t ∧ g.Only st e c o := by
  induction fuel, e, free using InterceptFree.induct generalizing c s o t with
  | zero e free => cases ran
  | composite fuel e free composite ih =>
      exact guarded_composite free composite fits sound faithful
        (fun p d s o t part fits sound faithful ran => ih p part (seedFree.part part) fits sound faithful ran) ran
  | missing fuel r free found =>
      obtain ⟨o', failed, -⟩ := Prim.orphan.run_follows fits
      simp only [runCalling_missing found, failed, ok_bind] at ran
      cases ran
      refine ⟨faithful, fun fuel' u o' u' _ ran' => ?_⟩
      have missing : g.withoutMemo.rules[r]? = none := by rw [rules_withoutMemo, found, Option.map_none]
      cases fuel' with
      | zero => cases ran'
      | succ fuel' =>
          simp only [run_missing fuel' missing, failed, ok_bind] at ran'
          cases ran'
          rfl
  | plain fuel r rule free found mode ih =>
      rw [runCalling_rule found] at ran
      simp only [Calling.guarded, mode] at ran
      obtain ⟨faithful', only⟩ := ih (seedFree.body found) fits sound faithful ran
      exact ⟨faithful', only.call found (by simp [mode])⟩
  | memo fuel r rule free found mode ih =>
      rw [runCalling_rule found] at ran
      obtain ⟨faithful', only⟩ := guarded_memo one found mode fits sound faithful
        (fun s o t sound faithful ran => ih (seedFree.body found) fits sound faithful ran) ran
      exact ⟨faithful', only.call found (by simp [mode])⟩
  | leftRecursive fuel r rule free found mode => exact absurd mode (seedFree r rule (.self _) found)

/-- If a run in a fresh session calls each memoized rule under one context at most at each index, it gives the outcome
that a run without memoization gives: the same value, end and final context, or the same failure. -/
theorem memo_transparent_in_context (g : Grammar) (e : Expr) (c : Cursor) (options : Options)
    (allowed : Nat → Cursor → Bool) (fuel fuel' : Nat) (o o' : Outcome) (s s' : Session) (free : g.InterceptFree e)
    (seedFree : g.SeedFree e) (boundary : (Text.dropBytes? c.index c.text).isSome) (one : OneContext allowed)
    (ran : g.runCalling (.guarded allowed) fuel e c (.fresh options {}) = .ok (o, s))
    (ran' : g.withoutMemo.run fuel' e c (.fresh options {}) = .ok (o', s')) :
    g.run fuel e c (.fresh options {}) = .ok (o, s) ∧ o = o' := by
  let st : Setting := ⟨c.text, false, true⟩
  have fits : c.Fits st := ⟨rfl, boundary, fun plain => absurd plain Bool.false_ne_true⟩
  have faithful : g.Faithful st allowed (.fresh options {}) := fun _ _ _ _ _ _ _ _ known => by cases known
  have only := (guarded_faithful one free seedFree fits (.fresh options {}) faithful ran).2
  exact ⟨guarded_run ran, only fuel' _ o' s' (.fresh options {}) ran'⟩

def marked (_ : Nat) (d : Cursor) : Bool :=
  match d.context with
  | some (.bool b) => b == (d.index == 1)
  | _ => false

theorem memo_transparent_in_context_at_two_indices :
    let g : Grammar := { rules := [⟨.memo, "mark", .pair (.prim .digit) (.prim .readContext)⟩] }
    let e : Expr := .pair (.rule 0) (.pair (.prim (.updateContext fun _ => .bool true)) (.rule 0))
    let c : Cursor := ⟨['4', '2'], 0, some (.bool false)⟩
    ∃ o s s', g.run 5 e c (.fresh {} {}) = .ok (o, s) ∧ g.withoutMemo.run 5 e c (.fresh {} {}) = .ok (o, s') := by
  intro g e c
  have one : OneContext marked := by
    intro r c d may may' same
    obtain ⟨text, index, context⟩ := c
    obtain ⟨text', index', context'⟩ := d
    cases same
    unfold marked at may may'
    split at may <;> split at may' <;> simp_all
  obtain ⟨⟨o, s⟩, ran⟩ :=
    eq_ok_of_isOk (x := g.runCalling (.guarded marked) 5 e c (.fresh {} {})) (by decide +kernel)
  obtain ⟨⟨o', s'⟩, ran'⟩ := eq_ok_of_isOk (x := g.withoutMemo.run 5 e c (.fresh {} {})) (by decide +kernel)
  obtain ⟨result, rfl⟩ := memo_transparent_in_context g e c {} marked 5 5 o o' s s' (.of_isSimple rfl rfl)
    (.of_modes rfl) (by decide) one ran ran'
  exact ⟨o, s, s', result, ran'⟩

/-- A memoized rule that is called twice at one index answers with the context of its first call. -/
theorem memo_opaque_under_two_contexts :
    let g : Grammar := { rules := [⟨.memo, "context", .prim .readContext⟩] }
    let next : Value → Value := fun | .int n => .int (n + 1) | v => v
    let e : Expr := .pair (.rule 0) (.skipThen (.prim (.updateContext next)) (.rule 0))
    let c : Cursor := .start [] (some (.int 0))
    g.InterceptFree e ∧ g.SeedFree e ∧ (Text.dropBytes? c.index c.text).isSome ∧
      ¬∀ fuel fuel' o o' s s', g.run fuel e c (.fresh {} {}) = .ok (o, s) →
        g.withoutMemo.run fuel' e c (.fresh {} {}) = .ok (o', s') → o = o' := by
  intro g next e c
  refine ⟨.of_isSimple rfl rfl, .of_modes rfl, rfl, fun agree => ?_⟩
  have same : Outcome.success (.pair (.int 0) (.int 0)) c =
      .success (.pair (.int 0) (.int 1)) (c.withContext (.int 1)) := agree 5 5 _ _ _ _ rfl rfl
  simp at same

end Grammar
end ParseEngine
