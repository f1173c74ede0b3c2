import ParseEngine.Proofs.Calling
import ParseEngine.Proofs.Settlement
import ParseEngine.Proofs.Transparency

/-!
A left-recursive rule has a value of its own at a place if its seed can be grown there in a session of its own, where
every other left-recursive rule that is called runs in a session of its own again. Whatever is in flight when such a
rule is evaluated, what the session remembers of it is its own value, and so is what later runs are given. Rules that
are left-recursive through each other at one index have no values of their own.
-/

namespace ParseEngine

/-- Calls a left-recursive rule that is not in flight in a session of its own; other rules run as they stand. -/
def Calling.alone : Calling := fun r rule body c s =>
  if rule.mode = .leftRecursive then
    match s.growing.lookup ⟨.rule r, c.index⟩ with
    | some growth => .ok (growth.seed, s)
    | none => do
        let (o, _) ← Runner.growSeed (.rule r) rule.title body c (.fresh s.options {})
        return (o, s)
  else body c s

/-- With every left-recursive rule in a session of its own, the expression gives the outcome. -/
def Grammar.Own (g : Grammar) (options : Options) (fuel : Nat) (e : Expr) (c : Cursor) (o : Outcome) : Prop :=
  ∃ s, g.runCalling .alone fuel e c (.fresh options {}) = .ok (o, s)

variable {g : Grammar} {st : Setting} {options : Options} {e : Expr} {r : Nat} {rule : Rule} {c : Cursor}
  {s s' t t' u : Session} {o o' : Outcome} {fuel fuel' n m : Nat} {key : Key}

theorem Session.readsBelow_kept (s t : Session) (key : Key) (o : Outcome) (depth : Nat) :
    (s.kept t key o).readsBelow depth = (s.readsBelow depth || t.readsBelow depth) := by
  rw [← readsBelow_resume]
  unfold kept
  split
  · rfl
  · unfold remember
    split <;> rfl

namespace Calling

theorem alone_monotone : alone.Monotone := by
  intro r rule p p' below c s
  unfold alone
  split
  · split
    · exact .refl _
    · refine Below.bind ?_ fun _ => .refl _
      unfold Runner.growSeed
      refine Below.bind (.refl _) fun seed => Below.bind (.refl _) fun rest => ?_
      exact (Runner.growFrom_below _ _ below _ _ c _).bind fun _ => .refl _
  · exact below c s

theorem alone_other {body : Runner} (mode : rule.mode ≠ .leftRecursive) : alone r rule body = body := by
  funext c s
  rw [alone, if_neg mode]

theorem alone_seed {body : Runner} {growth : Growth} (mode : rule.mode = .leftRecursive)
    (inFlight : s.growing.lookup ⟨.rule r, c.index⟩ = some growth) :
    alone r rule body c s = .ok (growth.seed, s) := by
  simp only [alone, if_pos mode, inFlight]

theorem alone_grow {body : Runner} {rest : List Char} (mode : rule.mode = .leftRecursive)
    (idle : s.growing.lookup ⟨.rule r, c.index⟩ = none) (remains : c.remaining = .ok rest) :
    alone r rule body c s = Runner.growFrom (.rule r) (Runner.growthCap s.options rest) body
      (Runner.growthCap s.options rest + 1) 0 c
      ((Session.fresh s.options {}).begin ⟨.rule r, c.index⟩ (Runner.firstSeed rule.title c rest)) >>= fun r =>
      .ok (r.1, s) := by
  simp only [alone, if_pos mode, idle, Runner.growSeed_eq remains, bind_assoc, ok_bind]
  rfl

end Calling

namespace Grammar

theorem Own.mono (own : g.Own options n e c o) (le : n ≤ m) : g.Own options m e c o := by
  obtain ⟨s, ran⟩ := own
  exact ⟨s, runCalling_mono Calling.alone_monotone le ran⟩

theorem Own.unique (own : g.Own options n e c o) (own' : g.Own options m e c o') : o = o' := by
  obtain ⟨s, ran⟩ := own.mono (Nat.le_max_left n m)
  obtain ⟨s', ran'⟩ := own'.mono (Nat.le_max_right n m)
  rw [ran] at ran'
  cases ran'
  rfl

theorem Own.least (own : g.Own options n e c o) :
    ∃ m ≤ n, g.Own options m e c o ∧ ∀ k < m, ¬g.Own options k e c o := by
  induction n using Nat.strongRecOn with
  | ind n ih =>
      by_cases less : ∃ k < n, g.Own options k e c o
      · obtain ⟨k, lt, own'⟩ := less
        obtain ⟨m, le, least⟩ := ih k lt own'
        exact ⟨m, Nat.le_trans le (Nat.le_of_lt lt), least⟩
      · exact ⟨n, Nat.le_refl n, own, fun k lt own' => less ⟨k, lt, own'⟩⟩

theorem alone_advances (free : st.closed → g.InterceptFree e) (fits : c.Fits st) (sound : s.Sound g st) :
    Safely (g.Advances st c.index s) (g.runCalling .alone n e c s) := by
  induction n generalizing e c s with
  | zero => exact .inl rfl
  | succ n ih =>
      by_cases composite : e.isComposite = true
      · rw [runCalling_composite composite]
        have orderly := e.routine_disciplined composite fits (Expr.description g.rules) n
        refine (orderly.safely (fun p d t part here sound' => ?_) sound).weaken
          fun r reached => ⟨reached.1, reached.2.1, reached.2.2⟩
        exact ih (fun closed => (free closed).part part) here.fits sound'
      · cases e with
        | rule r =>
            cases found : g.rules[r]? with
            | none =>
                obtain ⟨o, failed, follows⟩ := Prim.orphan.run_follows fits
                simp only [runCalling_missing found, failed, ok_bind]
                exact .ok (.alike follows sound (.refl s))
            | some rule =>
                have body (s : Session) (sound : s.Sound g st) :=
                  ih (fun closed => (free closed).body found) fits sound
                rw [runCalling_rule found]
                by_cases mode : rule.mode = .leftRecursive
                · cases inFlight : s.growing.lookup ⟨.rule r, c.index⟩ with
                  | some growth =>
                      rw [Calling.alone_seed mode inFlight]
                      exact .ok (.alike (sound.growing _ growth inFlight).seed sound (.refl s))
                  | none =>
                      obtain ⟨before, rest, remains, -, -⟩ := fits.remaining
                      rw [Calling.alone_grow mode inFlight remains]
                      have grown := Runner.grown_safely (s := .fresh s.options {}) found mode fits (.fresh s.options {})
                        rfl rfl body (.refl _) rule.title rest (Runner.growthCap s.options rest)
                        (Runner.growthCap s.options rest + 1)
                      exact grown.bind fun r result => .ok (.alike result.1 sound (.refl s))
                · rw [Calling.alone_other mode]
                  exact body s sound
        | intercept interceptor p => exact .inl rfl
        | _ => exact absurd rfl composite

def Coherent (g : Grammar) (st : Setting) (options : Options) (s : Session) : Prop :=
  ∀ r c o n o', c.Fits st → s.memo.lookup ⟨.rule r, c.index⟩ = some (.outcome o) → g.Own options n (.rule r) c o' →
    o' = o

def Valueless (g : Grammar) (st : Setting) (options : Options) (n : Nat) (key : Key) : Prop :=
  ∀ r c o, key = ⟨.rule r, c.index⟩ → c.Fits st → ¬g.Own options n (.rule r) c o

theorem Valueless.mono (valueless : g.Valueless st options n key) (le : m ≤ n) : g.Valueless st options m key :=
  fun r c o same fits own => valueless r c o same fits (own.mono le)

def Ownless (g : Grammar) (st : Setting) (options : Options) (key : Key) : Prop :=
  ∀ n, g.Valueless st options n key

/-- What is remembered of rules without a value of their own is as before, and no seed of the first rules in flight,
up to the floor, was read. -/
structure Spares (g : Grammar) (st : Setting) (options : Options) (floor : Nat) (s t : Session) : Prop where
  memo : ∀ key, g.Ownless st options key → t.memo.lookup key = s.memo.lookup key
  reads : ∀ depth ≤ floor, t.readsBelow depth = s.readsBelow depth

/-- What a run from `t` shares with a run from `s` that calls every rule on its own: the seeds in flight in `s`, which
lie at the floor or above it. The other rules in flight in `t` have no value that the other run could use, or lie below
the depth where reads are noticed. -/
structure Shadows (g : Grammar) (st : Setting) (options : Options) (n depth floor : Nat) (s t : Session) : Prop where
  left : s.Sound g st
  right : t.Sound g st
  leftOptions : s.options = options
  rightOptions : t.options = options
  seeds : ∀ key growth, s.growing.lookup key = some growth → ∃ growth', t.growing.lookup key = some growth' ∧
    growth'.seed = growth.seed ∧ growth'.phase = growth.phase ∧ floor ≤ growth'.depth
  low : floor ≤ t.growing.length
  barred : ∀ key growth, t.growing.lookup key = some growth → growth.depth < depth ∨ g.Valueless st options n key
  coherent : g.Coherent st options t

def KeepsCoherent (g : Grammar) (st : Setting) (options : Options) (fuel : Nat) (e : Expr) : Prop :=
  ∀ ⦃c s o t⦄, c.Fits st → s.Sound g st → s.options = options → g.Coherent st options s →
    g.run fuel e c s = .ok (o, t) → g.Coherent st options t

/-- Runs with the fuel that read no seed below the depth give the expression's own value, if it has one, and spare
all else. -/
def GivesOwn (g : Grammar) (st : Setting) (options : Options) (fuel : Nat) (e : Expr) : Prop :=
  ∀ ⦃n depth floor c s t o s' o' t'⦄, c.Fits st → g.Shadows st options n depth floor s t →
    g.runCalling .alone n e c s = .ok (o, s') → g.run fuel e c t = .ok (o', t') →
    t'.readsBelow depth = true ∨ o = o' ∧ g.Spares st options floor t t'

theorem Ownless.not_own (ownless : g.Ownless st options ⟨.rule r, c.index⟩) (fits : c.Fits st) :
    ¬g.Own options n (.rule r) c o :=
  ownless n r c o rfl fits

theorem ownless_or_own (plain : st.plain) (fits : c.Fits st) :
    g.Ownless st options ⟨.rule r, c.index⟩ ∨ ∃ n o, g.Own options n (.rule r) c o := by
  by_cases value : ∃ n o, g.Own options n (.rule r) c o
  · exact .inr value
  · refine .inl fun n r' c' o same fits' own => value ⟨n, o, ?_⟩
    obtain ⟨sameRule, sameIndex⟩ := Key.mk.inj same
    cases sameRule
    cases fits.eq_of_index plain fits' sameIndex
    exact own

namespace Spares
variable {floor : Nat}

theorem of_eq (memo : t.memo = s.memo) (read : t.shallowestRead = s.shallowestRead) :
    g.Spares st options floor s t :=
  ⟨fun key _ => by rw [memo], fun depth _ => Session.readsBelow_congr read depth⟩

theorem trans (first : g.Spares st options floor s t) (second : g.Spares st options floor t u) :
    g.Spares st options floor s u :=
  ⟨fun key ownless => (second.memo key ownless).trans (first.memo key ownless),
    fun depth low => (second.reads depth low).trans (first.reads depth low)⟩

theorem reread {growth : Growth} (high : floor ≤ growth.depth) : g.Spares st options floor s (s.reread growth) := by
  refine ⟨fun _ _ => rfl, fun depth low => ?_⟩
  have above : ¬growth.depth < depth := by omega
  rw [Session.readsBelow_reread, decide_eq_false above, Bool.or_false]

theorem kept (spares : g.Spares st options floor s.untracked u) (fits : c.Fits st)
    (own : g.Own options n (.rule r) c o) : g.Spares st options floor s (s.kept u ⟨.rule r, c.index⟩ o') := by
  refine ⟨fun key ownless => ?_, fun depth low => ?_⟩
  · have differs : key ≠ ⟨.rule r, c.index⟩ := by
      rintro rfl
      exact ownless.not_own fits own
    rw [Session.kept_memo]
    split
    · exact spares.memo key ownless
    · split
      · exact spares.memo key ownless
      · rw [List.lookup_cons, beq_eq_false_iff_ne.2 differs]
        exact spares.memo key ownless
  · have unread : u.readsBelow depth = false := spares.reads depth low
    rw [Session.readsBelow_kept, unread, Bool.or_false]

end Spares

theorem Coherent.of_memo (coherent : g.Coherent st options s) (same : t.memo = s.memo) :
    g.Coherent st options t := by
  intro r c o n o' fits known own
  rw [same] at known
  exact coherent r c o n o' fits known own

theorem Coherent.kept (coherent : g.Coherent st options u) (plain : st.plain) (fits : c.Fits st)
    (value : u.readsBelow s.growing.length = false → ∀ n o', g.Own options n (.rule r) c o' → o' = o) :
    g.Coherent st options (s.kept u ⟨.rule r, c.index⟩ o) := by
  intro r' c' o₁ n o' fits' known own
  rw [Session.kept_memo] at known
  split at known
  · exact coherent r' c' o₁ n o' fits' known own
  · rename_i read
    split at known
    · exact coherent r' c' o₁ n o' fits' known own
    · rw [List.lookup_cons] at known
      split at known
      · rename_i same
        obtain ⟨sameRule, sameIndex⟩ := Key.mk.inj (eq_of_beq same)
        cases sameRule
        cases fits'.eq_of_index plain fits sameIndex
        cases known
        exact value (by simpa using read) n o' own
      · exact coherent r' c' o₁ n o' fits' known own

namespace Shadows
variable {depth floor : Nat}

theorem continues (shadows : g.Shadows st options n depth floor s t) (first : s.Continues s') (second : t.Continues t')
    (left : s'.Sound g st) (right : t'.Sound g st) (coherent : g.Coherent st options t') :
    g.Shadows st options n depth floor s' t' := by
  refine ⟨left, right, first.options.trans shadows.leftOptions, second.options.trans shadows.rightOptions, ?_, ?_,
    ?_, coherent⟩
  · rw [first.growing, second.growing]
    exact shadows.seeds
  · rw [second.growing]
    exact shadows.low
  · rw [second.growing]
    exact shadows.barred

theorem counted (shadows : g.Shadows st options n depth floor s t) :
    g.Shadows st options n depth floor s.counted t.counted :=
  shadows.continues s.counted_continues t.counted_continues (shadows.left.congr rfl rfl)
    (shadows.right.congr rfl rfl) (shadows.coherent.of_memo rfl)

theorem annotate (shadows : g.Shadows st options n depth floor s t) (f f' : Journal → Journal) :
    g.Shadows st options n depth floor (s.annotate f) (t.annotate f') :=
  shadows.continues (.annotate s f) (.annotate t f') (shadows.left.congr rfl rfl) (shadows.right.congr rfl rfl)
    (shadows.coherent.of_memo rfl)

theorem less (shadows : g.Shadows st options n depth floor s t) (le : m ≤ n) : g.Shadows st options m depth floor s t :=
  { shadows with
    barred := fun key growth inFlight =>
      (shadows.barred key growth inFlight).imp_right fun valueless => valueless.mono le }

theorem begin (shadows : g.Shadows st options n depth floor s t) (grows : g.Grows key.parser)
    (unknown : s.memo.lookup key = none) (unknown' : t.memo.lookup key = none) (follows : o.Follows st key.index)
    (valueless : g.Valueless st options n key) :
    g.Shadows st options n depth floor (s.begin key o) (t.begin key o) := by
  refine ⟨shadows.left.begin grows (fun _ _ => unknown) follows,
    shadows.right.begin grows (fun _ _ => unknown') follows, shadows.leftOptions, shadows.rightOptions, ?_,
    Nat.le_succ_of_le shadows.low, ?_, shadows.coherent.of_memo rfl⟩
  · intro other growth inFlight
    rw [Session.lookup_begin] at inFlight ⊢
    split at inFlight
    · rename_i same
      cases inFlight
      exact ⟨_, if_pos same, rfl, rfl, shadows.low⟩
    · rename_i differs
      rw [if_neg differs]
      exact shadows.seeds other growth inFlight
  · intro other growth inFlight
    rw [Session.lookup_begin] at inFlight
    split at inFlight
    · rename_i same
      exact .inr (same ▸ valueless)
    · exact shadows.barred other growth inFlight

theorem grow {base base' : Session} (shadows : g.Shadows st options n depth floor s t) (above : base.Above key s)
    (above' : base'.Above key t) (idle : base.growing.lookup key = none) (idle' : base'.growing.lookup key = none)
    (follows : o.Follows st key.index) : g.Shadows st options n depth floor (s.grow key o) (t.grow key o) := by
  obtain ⟨growth, top⟩ := above.growing
  obtain ⟨growth', top'⟩ := above'.growing
  refine ⟨shadows.left.grow top idle follows, shadows.right.grow top' idle' follows, shadows.leftOptions,
    shadows.rightOptions, ?_, ?_, ?_, shadows.coherent.of_memo rfl⟩
  · intro other grown inFlight
    rw [Session.lookup_grow] at inFlight ⊢
    split at inFlight
    · rename_i same
      obtain ⟨old, found, rfl⟩ := Option.map_eq_some_iff.1 inFlight
      obtain ⟨old', found', -, -, high⟩ := shadows.seeds key old found
      refine ⟨{ old' with seed := o, phase := .growing }, ?_, rfl, rfl, high⟩
      rw [if_pos same, found', Option.map_some]
    · rename_i differs
      rw [if_neg differs]
      exact shadows.seeds other grown inFlight
  · rw [Session.length_grow]
    exact shadows.low
  · intro other grown inFlight
    rw [Session.lookup_grow] at inFlight
    split at inFlight
    · rename_i same
      obtain ⟨old, found, rfl⟩ := Option.map_eq_some_iff.1 inFlight
      exact same ▸ shadows.barred key old found
    · exact shadows.barred other grown inFlight

end Shadows

section Growth
variable {body : Expr} {base base' : Session} {depth floor cap left grown : Nat}
  (free : g.InterceptFree body) (fits : c.Fits st) (gives : g.GivesOwn st options fuel body)
  (keeps : g.KeepsCoherent st options fuel body)
include free fits

theorem turn_reads (idle : base.growing.lookup ⟨.rule r, c.index⟩ = none) (sound : t.Sound g st)
    (above : base.Above ⟨.rule r, c.index⟩ t) (read : t.readsBelow depth = true) {pass : Outcome}
    (ran : (Runner.turn (.rule r) cap grown c pass t).follow
      (fun grown => Runner.growFrom (.rule r) cap (g.run fuel body) left grown c) = .ok (o, t'))
    (follows : pass.Follows st c.index) : t'.readsBelow depth = true := by
  have passes (s : Session) (sound : s.Sound g st) := run_advances fuel body (fun _ => free) fits sound
  obtain ⟨growth, stack⟩ := above.growing
  have top : t.growing.lookup ⟨.rule r, c.index⟩ = some growth := by rw [stack, List.lookup_cons_self]
  rcases Runner.turn_cases top cap grown pass with ⟨-, turned⟩ | ⟨-, -, note, turned⟩ | ⟨-, -, note, turned⟩
  · simp only [turned, Runner.Turn.follow] at ran
    cases ran
    exact read
  · simp only [turned, Runner.Turn.follow] at ran
    cases ran
    exact read
  · simp only [turned, Runner.Turn.follow] at ran
    have noted := (Session.Alike.annotate t note).sound sound
    refine Runner.growFrom_keeps (I := fun t => t.readsBelow depth = true) idle passes ?_ (fun _ _ read => read)
      (fun _ _ _ _ read => read) (noted.grow stack idle follows)
      ((above.continues (.annotate t note)).grow idle pass) read ran
    intro t o u sound read ran
    exact ((passes t.counted (sound.congr rfl rfl)).result ran).continues.reads depth read

include gives keeps

theorem Shadows.growFrom (idle : base.growing.lookup ⟨.rule r, c.index⟩ = none)
    (idle' : base'.growing.lookup ⟨.rule r, c.index⟩ = none) (shadows : g.Shadows st options n depth floor s t)
    (above : base.Above ⟨.rule r, c.index⟩ s) (above' : base'.Above ⟨.rule r, c.index⟩ t)
    (ran : Runner.growFrom (.rule r) cap (g.runCalling .alone n body) left grown c s = .ok (o, s'))
    (ran' : Runner.growFrom (.rule r) cap (g.run fuel body) left grown c t = .ok (o', t')) :
    t'.readsBelow depth = true ∨ o = o' ∧ g.Spares st options floor t t' := by
  let key : Key := ⟨.rule r, c.index⟩
  have agree := Runner.growFrom_agrees st
    (A := fun u v => g.Shadows st options n depth floor u v ∧ base.Above key u ∧ base'.Above key v ∧
      g.Spares st options floor t v)
    (B := fun v => v.readsBelow depth = true) ?_ ?_ ?_ ?_ ⟨shadows, above, above', .of_eq rfl rfl⟩ ran ran'
  · exact agree.imp_right fun same => ⟨same.1, same.2.2.2.2⟩
  · rintro u v ⟨shadows, above, -, -⟩
    obtain ⟨growth, top⟩ := above.lookup
    obtain ⟨growth', top', sameSeed, samePhase, -⟩ := shadows.seeds key growth top
    exact ⟨growth, growth', top, top', sameSeed, samePhase⟩
  · rintro s t' o u o' v ⟨shadows, above, above', spares⟩ passed passed'
    have advances := (alone_advances (fun _ => free) fits shadows.counted.left).result passed
    have advances' := (run_advances fuel body (fun _ => free) fits shadows.counted.right).result passed'
    have above := above.continues (s.counted_continues.trans advances.continues)
    have above' := above'.continues (t'.counted_continues.trans advances'.continues)
    rcases gives fits shadows.counted passed passed' with read | ⟨rfl, more⟩
    · exact .inl fun _ _ _ _ ran => turn_reads free fits idle' advances'.sound above' read ran advances'.follows
    · have coherent := keeps fits shadows.counted.right shadows.rightOptions shadows.counted.coherent passed'
      exact .inr ⟨rfl, ⟨shadows.counted.continues advances.continues advances'.continues advances.sound
        advances'.sound coherent, above, above', spares.trans ⟨more.memo, more.reads⟩⟩, advances.follows⟩
  · rintro u v f f' ⟨shadows, above, above', spares⟩
    exact ⟨shadows.annotate f f', above.continues (.annotate u f), above'.continues (.annotate v f'),
      spares.trans (.of_eq rfl rfl)⟩
  · rintro u v pass ⟨shadows, above, above', spares⟩ follows
    exact ⟨shadows.grow above above' idle idle' follows, above.grow idle pass, above'.grow idle' pass,
      spares.trans (.of_eq rfl rfl)⟩

end Growth

section Rule
variable {depth floor : Nat} (plain : st.plain) (closed : st.closed) (found : g.rules[r]? = some rule)
  (mode : rule.mode = .leftRecursive) (free : g.InterceptFree rule.body)
  (gives : g.GivesOwn st options fuel rule.body) (keeps : g.KeepsCoherent st options fuel rule.body)
include plain closed found mode free gives keeps

theorem grown_own (low : floor ≤ t.growing.length) (fits : c.Fits st) (sound : t.Sound g st)
    (sameOptions : t.options = options) (coherent : g.Coherent st options t)
    (idle : t.growing.lookup ⟨.rule r, c.index⟩ = none)
    (miss : (t.memo.lookup ⟨.rule r, c.index⟩).bind (·.outcome? c.context.isSome) = none)
    (own : g.Own options n (.rule r) c o)
    (barred : ∀ key growth, t.growing.lookup key = some growth → growth.depth < depth ∨ g.Valueless st options n key)
    {start : Session} (alike : start.Alike t.untracked) {rest : List Char} (remains : c.remaining = .ok rest)
    (ran : Runner.growFrom (.rule r) (Runner.growthCap t.options rest) (g.run fuel rule.body)
      (Runner.growthCap t.options rest + 1) 0 c
      (start.begin ⟨.rule r, c.index⟩ (Runner.firstSeed rule.title c rest)) = .ok (o', t')) :
    t'.readsBelow depth = true ∨ o = o' ∧ g.Spares st options floor t.untracked t' := by
  -- with the least fuel that gives its value, the rule has no value inside its own body
  obtain ⟨m, le, own, least⟩ := own.least
  obtain ⟨s', value⟩ := id own
  cases m with
  | zero => cases value
  | succ m =>
      rw [runCalling_rule found, Calling.alone_grow mode rfl remains] at value
      obtain ⟨⟨o₁, s'⟩, grown, result⟩ := bind_eq_ok.1 value
      cases result
      have valueless : g.Valueless st options m ⟨.rule r, c.index⟩ := by
        intro r' c' o₂ same fits' own'
        obtain ⟨sameRule, sameIndex⟩ := Key.mk.inj same
        cases sameRule
        cases fits.eq_of_index plain fits' sameIndex
        cases own'.unique own
        exact least m (Nat.lt_succ_self m) own'
      have unknown : start.memo.lookup ⟨.rule r, c.index⟩ = none := by
        rw [alike.memo]
        exact Runner.miss_unknown sound fits plain closed miss
      have grows : g.Grows (.rule r) := ⟨r, rule, rfl, found, mode⟩
      have started : g.Shadows st options m depth floor (.fresh options {}) start := by
        refine ⟨.fresh options {}, alike.sound (sound.congr rfl rfl), rfl, alike.options.trans sameOptions,
          fun _ _ inFlight => ?_, ?_, fun key growth inFlight => ?_, coherent.of_memo alike.memo⟩
        · cases inFlight
        · rw [alike.growing]
          exact low
        · rw [alike.growing] at inFlight
          exact (barred key growth inFlight).imp_right fun valueless => valueless.mono (Nat.le_of_succ_le le)
      have begun := started.begin grows rfl unknown (Runner.firstSeed_follows fits rule.title rest) valueless
      rw [sameOptions] at ran
      have nothing : (Session.fresh options {}).growing.lookup ⟨.rule r, c.index⟩ = none := rfl
      rcases begun.growFrom free fits gives keeps nothing idle (.begin (.refl _) _ _) (.begin alike _ _) grown ran with
        read | ⟨same, spares⟩
      · exact .inl read
      · exact .inr ⟨same, .trans (t := start.begin _ _) (.of_eq alike.memo alike.read) spares⟩

theorem leftRecursive_keepsCoherent : g.KeepsCoherent st options (fuel + 1) (.rule r) := by
  intro c s o t fits sound sameOptions coherent ran
  have pass (s : Session) (sound : s.Sound g st) := run_advances fuel rule.body (fun _ => free) fits sound
  rw [run_leftRecursive found fuel mode] at ran
  cases inFlight : s.growing.lookup ⟨.rule r, c.index⟩ with
  | some growth =>
      rw [Runner.leftRecursive_seed rule.title _ inFlight] at ran
      cases ran
      exact coherent.of_memo rfl
  | none =>
      cases known : (s.memo.lookup ⟨.rule r, c.index⟩).bind (·.outcome? c.context.isSome) with
      | some o' =>
          obtain ⟨u, alike, hit⟩ := Runner.leftRecursive_hit rule.title (g.run fuel rule.body) inFlight known
          rw [hit] at ran
          cases ran
          exact coherent.of_memo alike.memo
      | none =>
          obtain ⟨before, rest, remains, -, -⟩ := fits.remaining
          obtain ⟨start, alike, grows⟩ := Runner.leftRecursive_grow rule.title remains inFlight known
          rw [grows] at ran
          obtain ⟨⟨o', u⟩, grown, result⟩ := bind_eq_ok.1 ran
          cases result
          have unknown : start.memo.lookup ⟨.rule r, c.index⟩ = none := by
            rw [alike.memo]
            exact Runner.miss_unknown sound fits plain closed known
          have begun := (alike.sound (sound.congr rfl rfl)).begin ⟨r, rule, rfl, found, mode⟩
            (fun _ _ => unknown) (Runner.firstSeed_follows fits rule.title rest)
          have inside : u.options = options ∧ g.Coherent st options u := by
            refine Runner.growFrom_keeps (I := fun t => t.options = options ∧ g.Coherent st options t) inFlight pass
              ?_ (fun t f holds => ⟨holds.1, holds.2.of_memo rfl⟩) (fun t o _ _ holds => ⟨holds.1, holds.2.of_memo rfl⟩)
              begun (.begin alike _ _) ⟨alike.options.trans sameOptions, coherent.of_memo alike.memo⟩ grown
            rintro t o u sound ⟨sameOptions, coherent⟩ ran
            have counted : t.counted.Sound g st := sound.congr rfl rfl
            have advances := (pass t.counted counted).result ran
            exact ⟨advances.continues.options.trans sameOptions,
              keeps fits counted sameOptions (coherent.of_memo rfl) ran⟩
          refine (inside.2.of_memo (t := u.finish ⟨.rule r, c.index⟩) rfl).kept plain fits fun unread n o own => ?_
          have barred (key : Key) (growth : Growth) (inFlight : s.growing.lookup key = some growth) :
              growth.depth < s.growing.length ∨ g.Valueless st options n key :=
            .inl (sound.growing key growth inFlight).depth
          rcases grown_own plain closed found mode free gives keeps (Nat.zero_le _) fits sound sameOptions coherent
            inFlight known own barred alike remains grown with read | ⟨same, -⟩
          · exact absurd (read.symm.trans unread) (by decide)
          · exact same

theorem leftRecursive_givesOwn : g.GivesOwn st options (fuel + 1) (.rule r) := by
  intro n depth floor c s t o s' o' t' fits shadows ran ran'
  rw [run_leftRecursive found fuel mode] at ran'
  cases n with
  | zero => cases ran
  | succ n =>
      cases mine : s.growing.lookup ⟨.rule r, c.index⟩ with
      | some growth =>
          obtain ⟨growth', theirs, same, -, high⟩ := shadows.seeds _ growth mine
          rw [runCalling_rule found, Calling.alone_seed mode mine] at ran
          rw [Runner.leftRecursive_seed rule.title _ theirs] at ran'
          cases ran
          cases ran'
          exact .inr ⟨same.symm, .reread high⟩
      | none =>
          obtain ⟨before, rest, remains, -, -⟩ := fits.remaining
          -- the run on the left has grown the seed in a session of its own
          have own : g.Own options (n + 1) (.rule r) c o := by
            rw [runCalling_rule found, Calling.alone_grow mode mine remains, shadows.leftOptions] at ran
            obtain ⟨⟨o, u⟩, grown, result⟩ := bind_eq_ok.1 ran
            cases result
            refine ⟨.fresh options {}, ?_⟩
            rw [runCalling_rule found, Calling.alone_grow mode rfl remains]
            exact bind_eq_ok.2 ⟨(o, u), grown, rfl⟩
          cases theirs : t.growing.lookup ⟨.rule r, c.index⟩ with
          | some growth =>
              rw [Runner.leftRecursive_seed rule.title _ theirs] at ran'
              cases ran'
              -- a rule with a value is in flight only where the read of its seed is noticed
              rcases shadows.barred _ growth theirs with noticed | valueless
              · exact .inl (by rw [t.readsBelow_reread, decide_eq_true noticed, Bool.or_true])
              · exact absurd own (valueless r c o rfl fits)
          | none =>
              cases known : (t.memo.lookup ⟨.rule r, c.index⟩).bind (·.outcome? c.context.isSome) with
              | some o₁ =>
                  obtain ⟨u, alike, hit⟩ := Runner.leftRecursive_hit rule.title (g.run fuel rule.body) theirs known
                  rw [hit] at ran'
                  cases ran'
                  obtain ⟨entry, known', read⟩ := Option.bind_eq_some_iff.1 known
                  rw [Entry.eq_of_outcome? read] at known'
                  exact .inr ⟨shadows.coherent r c o' (n + 1) o fits known' own, .of_eq alike.memo alike.read⟩
              | none =>
                  obtain ⟨start, alike, grows⟩ := Runner.leftRecursive_grow rule.title remains theirs known
                  rw [grows] at ran'
                  obtain ⟨⟨o₁, u⟩, grown, result⟩ := bind_eq_ok.1 ran'
                  cases result
                  rw [Session.readsBelow_kept, Bool.or_eq_true]
                  rcases grown_own plain closed found mode free gives keeps shadows.low fits shadows.right
                    shadows.rightOptions shadows.coherent theirs known own shadows.barred alike remains grown with
                    read | ⟨same, spares⟩
                  · exact .inl (.inr read)
                  · exact .inr ⟨same, .kept (.trans spares (.of_eq rfl rfl)) fits own⟩

end Rule

theorem composite_keepsCoherent (free : g.InterceptFree e) (composite : e.isComposite)
    (parts : ∀ p, p.Part e → g.KeepsCoherent st options fuel p) : g.KeepsCoherent st options (fuel + 1) e := by
  intro c s o t fits sound sameOptions coherent ran
  have orderly := e.routine_disciplined composite fits (Expr.description g.rules) fuel
  rw [g.run_composite composite] at ran
  have kept := orderly.keeps (I := fun s => s.Sound g st ∧ s.options = options ∧ g.Coherent st options s) ?_ ?_
    ⟨sound, sameOptions, coherent⟩ ran
  · exact kept.2.2.2
  · rintro s f ⟨sound, sameOptions, coherent⟩
    exact ⟨(Session.Alike.annotate s f).sound sound, sameOptions, coherent.of_memo rfl⟩
  · rintro p d s o t part here ⟨sound, sameOptions, coherent⟩ ran
    have advances := (run_advances fuel p (fun _ => free.part part) here.fits sound).result ran
    exact ⟨advances.follows, advances.sound, advances.continues.options.trans sameOptions,
      parts p part here.fits sound sameOptions coherent ran⟩

theorem composite_givesOwn (free : g.InterceptFree e) (composite : e.isComposite)
    (parts : ∀ p, p.Part e → g.KeepsCoherent st options fuel p ∧ g.GivesOwn st options fuel p) :
    g.GivesOwn st options (fuel + 1) e := by
  intro n depth floor c s t o s' o' t' fits shadows ran ran'
  cases n with
  | zero => cases ran
  | succ n =>
      have orderly := e.routine_disciplined composite fits (Expr.description g.rules) (max n fuel)
      rw [runCalling_composite composite] at ran
      rw [g.run_composite composite] at ran'
      -- the loops of both routines may go on as long as those of the longer one
      have ran := e.routine_below _ (fun e c s => .refl _) (Nat.le_max_left n fuel) c s _ ran
      have ran' := e.routine_below _ (fun e c s => .refl _) (Nat.le_max_right n fuel) c t _ ran'
      have agree := orderly.agrees
        (A := fun s u => g.Shadows st options n depth floor s u ∧ g.Spares st options floor t u)
        (B := fun t => t.Sound g st ∧ t.readsBelow depth = true) ?_ ?_ ?_ ?_
        ⟨shadows.less (Nat.le_succ n), .of_eq rfl rfl⟩ ran ran'
      · exact agree.imp (fun spoilt => spoilt.2) (fun same => ⟨same.1, same.2.2⟩)
      · rintro s t f ⟨shadows, spares⟩
        exact ⟨shadows.annotate f f, spares.trans (.of_eq rfl rfl)⟩
      · rintro t f ⟨sound, read⟩
        exact ⟨(Session.Alike.annotate t f).sound sound, read⟩
      · rintro p d s t o s' o' t' part here ⟨shadows, spares⟩ ran ran'
        have advances := (alone_advances (fun _ => free.part part) here.fits shadows.left).result ran
        have advances' := (run_advances fuel p (fun _ => free.part part) here.fits shadows.right).result ran'
        refine ⟨advances'.follows, ((parts p part).2 here.fits shadows ran ran').imp (⟨advances'.sound, ·⟩) ?_⟩
        rintro ⟨same, more⟩
        have coherent := (parts p part).1 here.fits shadows.right shadows.rightOptions shadows.coherent ran'
        exact ⟨same, shadows.continues advances.continues advances'.continues advances.sound advances'.sound coherent,
          spares.trans more⟩
      · rintro p d t o t' part here ⟨sound, read⟩ ran
        have advances := (run_advances fuel p (fun _ => free.part part) here.fits sound).result ran
        exact ⟨advances.follows, advances.sound, advances.continues.reads depth read⟩

theorem run_own (memoFree : g.MemoFree) (plain : st.plain) (closed : st.closed) (options : Options) (fuel : Nat)
    (free : g.InterceptFree e) : g.KeepsCoherent st options fuel e ∧ g.GivesOwn st options fuel e := by
  induction fuel, e, free using InterceptFree.induct with
  | zero e free =>
      constructor
      · intro c s o t fits sound sameOptions coherent ran
        cases ran
      · intro n depth floor c s t o s' o' t' fits shadows ran ran'
        cases ran'
  | composite fuel e free composite ih =>
      exact ⟨composite_keepsCoherent free composite fun p part => (ih p part).1, composite_givesOwn free composite ih⟩
  | missing fuel r free found =>
      constructor
      · intro c s o t fits sound sameOptions coherent ran
        obtain ⟨-, rfl⟩ := (run_missing_eq_ok fuel found).1 ran
        exact coherent
      · intro n depth floor c s t o s' o' t' fits shadows ran ran'
        obtain ⟨o₁, failed, -⟩ := Prim.orphan.run_follows fits
        cases n with
        | zero => cases ran
        | succ n =>
            simp only [run_missing fuel found, runCalling_missing found, failed, ok_bind] at ran ran'
            cases ran
            cases ran'
            exact .inr ⟨rfl, .of_eq rfl rfl⟩
  | plain fuel r rule free found mode ih =>
      constructor
      · intro c s o t fits sound sameOptions coherent ran
        rw [run_plain found fuel mode] at ran
        exact ih.1 fits sound sameOptions coherent ran
      · intro n depth floor c s t o s' o' t' fits shadows ran ran'
        rw [run_plain found fuel mode] at ran'
        cases n with
        | zero => cases ran
        | succ n =>
            rw [runCalling_rule found, Calling.alone_other (by simp [mode])] at ran
            exact ih.2 fits (shadows.less (Nat.le_succ n)) ran ran'
  | memo fuel r rule free found mode => exact absurd mode (memoFree r rule found)
  | leftRecursive fuel r rule free found mode ih =>
      exact ⟨leftRecursive_keepsCoherent plain closed found mode (free.body found) ih.2 ih.1,
        leftRecursive_givesOwn plain closed found mode (free.body found) ih.2 ih.1⟩

theorem runCalling_alone_withoutMemo (g : Grammar) (n : Nat) :
    g.withoutMemo.runCalling .alone n = g.runCalling .alone n := by
  induction n with
  | zero => rfl
  | succ n ih =>
      funext e
      by_cases composite : e.isComposite = true
      · funext c
        rw [runCalling_composite composite, runCalling_composite composite, g.withoutMemo_description, ih]
      · cases e with
        | rule r =>
            cases found : g.rules[r]? with
            | none =>
                rw [runCalling_missing found, runCalling_missing (by rw [rules_withoutMemo, found]; rfl)]
            | some rule =>
                by_cases memo : rule.mode = .memo
                · rw [runCalling_rule found, runCalling_rule (rules_withoutMemo_of_memo found memo), ih,
                    Calling.alone_other (by simp), Calling.alone_other (by simp [memo])]
                · rw [runCalling_rule found, runCalling_rule (rules_withoutMemo_of_ne found memo), ih]
        | intercept interceptor p => rfl
        | _ => exact absurd rfl composite

theorem GivesOwn.value (gives : g.GivesOwn st options fuel e) (fits : c.Fits st) (sound : t.Sound g st)
    (sameOptions : t.options = options) (coherent : g.Coherent st options t)
    (barred : ∀ key growth, t.growing.lookup key = some growth → g.Ownless st options key)
    (own : g.Own options n e c o) (ran : g.run fuel e c t = .ok (o', t')) :
    o = o' ∧ g.Spares st options t.growing.length t t' := by
  obtain ⟨u, value⟩ := own
  have shadows : g.Shadows st options n 0 t.growing.length (.fresh options {}) t :=
    ⟨.fresh options {}, sound, rfl, sameOptions, fun _ _ inFlight => (by cases inFlight), Nat.le_refl _,
      fun key growth inFlight => .inr (barred key growth inFlight n), coherent⟩
  rcases gives fits shadows value ran with read | given
  · rw [t'.readsBelow_zero] at read
    cases read
  · exact given

theorem Own.withoutMemo (own : g.Own options n e c o) : g.withoutMemo.Own options n e c o := by
  obtain ⟨u, value⟩ := own
  exact ⟨u, by rw [runCalling_alone_withoutMemo, value]⟩

theorem Coherent.fresh (options : Options) : g.Coherent st options (.fresh options {}) :=
  fun _ _ _ _ _ _ known => by cases known

end Grammar
end ParseEngine
