import ParseEngine.Proofs.OwnValue

/-!
History: whether what a session has evaluated before matters for what it evaluates next.

It does not matter for an expression with a value of its own, since this is what every session gives. Nor does it
matter as long as all that is remembered are such values: two sessions that differ in nothing else give the same
outcomes. What rules without values of their own give depends on which of them was called first.
-/

namespace ParseEngine
namespace Grammar
variable {g : Grammar} {st : Setting} {options : Options} {e : Expr} {r : Nat} {rule : Rule} {c : Cursor}
  {s s' t t' u v : Session} {o o' : Outcome} {fuel n : Nat} {key : Key} {used : Nat → Prop} {start : Nat}

structure Trusted (g : Grammar) (st : Setting) (options : Options) (s : Session) : Prop where
  sound : s.Sound g st
  sameOptions : s.options = options
  coherent : g.Coherent st options s

theorem Trusted.congr (trusted : g.Trusted st options s) (options' : t.options = s.options) (memo : t.memo = s.memo)
    (growing : t.growing = s.growing) : g.Trusted st options t :=
  ⟨trusted.sound.congr memo growing, options'.trans trusted.sameOptions, trusted.coherent.of_memo memo⟩

theorem Trusted.run (trusted : g.Trusted st options s) (keeps : g.KeepsCoherent st options fuel e)
    (free : g.InterceptFree e) (fits : c.Fits st) (ran : g.run fuel e c s = .ok (o, t)) : g.Trusted st options t := by
  have advances := (run_advances fuel e (fun _ => free) fits trusted.sound).result ran
  exact ⟨advances.sound, advances.continues.options.trans trusted.sameOptions,
    keeps fits trusted.sound trusted.sameOptions trusted.coherent ran⟩

/-- Sessions with the same rules in flight, none of which has a value of its own, that remember the same of the used
rules without such values from the start on. -/
structure Twins (g : Grammar) (st : Setting) (options : Options) (used : Nat → Prop) (start : Nat) (s t : Session) :
    Prop where
  left : g.Trusted st options s
  right : g.Trusted st options t
  growing : t.growing = s.growing
  barred : ∀ key growth, s.growing.lookup key = some growth → g.Ownless st options key
  memo : ∀ r c, used r → g.Grows (.rule r) → Cursor.Fits st c → start ≤ c.index →
    g.Ownless st options ⟨.rule r, c.index⟩ →
    s.memo.lookup ⟨.rule r, c.index⟩ = t.memo.lookup ⟨.rule r, c.index⟩
  reads : ∀ depth ≤ s.growing.length, s.readsBelow depth = t.readsBelow depth

def AgreesOnTwins (g : Grammar) (st : Setting) (options : Options) (used : Nat → Prop) (start fuel : Nat) (e : Expr) :
    Prop :=
  ∀ ⦃c s t o s' o' t'⦄, c.Fits st → start ≤ c.index → g.Twins st options used start s t →
    g.run fuel e c s = .ok (o, s') → g.run fuel e c t = .ok (o', t') →
    o = o' ∧ g.Twins st options used start s' t'

namespace Twins

theorem congr (twins : g.Twins st options used start s t) (options' : s'.options = s.options)
    (options'' : t'.options = t.options) (memo : s'.memo = s.memo) (memo' : t'.memo = t.memo)
    (growing : s'.growing = s.growing) (growing' : t'.growing = t.growing)
    (read : s'.shallowestRead = s.shallowestRead) (read' : t'.shallowestRead = t.shallowestRead) :
    g.Twins st options used start s' t' := by
  refine ⟨twins.left.congr options' memo growing, twins.right.congr options'' memo' growing', ?_, ?_, ?_, ?_⟩
  · rw [growing, growing', twins.growing]
  · rw [growing]
    exact twins.barred
  · rw [memo, memo']
    exact twins.memo
  · intro depth low
    rw [growing] at low
    rw [Session.readsBelow_congr read, Session.readsBelow_congr read', twins.reads depth low]

theorem counted (twins : g.Twins st options used start s t) : g.Twins st options used start s.counted t.counted :=
  twins.congr rfl rfl rfl rfl rfl rfl rfl rfl

theorem annotate (twins : g.Twins st options used start s t) (f f' : Journal → Journal) :
    g.Twins st options used start (s.annotate f) (t.annotate f') :=
  twins.congr rfl rfl rfl rfl rfl rfl rfl rfl

theorem untracked (twins : g.Twins st options used start s t) :
    g.Twins st options used start s.untracked t.untracked :=
  ⟨twins.left.congr rfl rfl rfl, twins.right.congr rfl rfl rfl, twins.growing, twins.barred, twins.memo,
    fun _ _ => rfl⟩

theorem reread (twins : g.Twins st options used start s t) (growth : Growth) :
    g.Twins st options used start (s.reread growth) (t.reread growth) := by
  refine ⟨twins.left.congr rfl rfl rfl, twins.right.congr rfl rfl rfl, twins.growing, twins.barred, twins.memo,
    fun depth low => ?_⟩
  rw [s.readsBelow_reread, t.readsBelow_reread, twins.reads depth low]

theorem begin (twins : g.Twins st options used start s t) (grows : g.Grows key.parser)
    (unknown : s.memo.lookup key = none) (unknown' : t.memo.lookup key = none) (follows : o.Follows st key.index)
    (unread : s.shallowestRead = none) (unread' : t.shallowestRead = none) (ownless : g.Ownless st options key) :
    g.Twins st options used start (s.begin key o) (t.begin key o) := by
  refine ⟨⟨twins.left.sound.begin grows (fun _ _ => unknown) follows, twins.left.sameOptions,
      twins.left.coherent.of_memo rfl⟩,
    ⟨twins.right.sound.begin grows (fun _ _ => unknown') follows, twins.right.sameOptions,
      twins.right.coherent.of_memo rfl⟩, ?_, fun other growth inFlight => ?_, twins.memo, fun depth _ => ?_⟩
  · simp only [Session.begin, twins.growing]
  · rw [Session.lookup_begin] at inFlight
    split at inFlight
    · rename_i same
      exact same ▸ ownless
    · exact twins.barred other growth inFlight
  · simp only [Session.readsBelow, Session.begin, unread, unread']

theorem grow {base base' : Session} (twins : g.Twins st options used start s t) (above : base.Above key s)
    (above' : base'.Above key t) (idle : base.growing.lookup key = none) (idle' : base'.growing.lookup key = none)
    (follows : o.Follows st key.index) : g.Twins st options used start (s.grow key o) (t.grow key o) := by
  obtain ⟨growth, top⟩ := above.growing
  obtain ⟨growth', top'⟩ := above'.growing
  refine ⟨⟨twins.left.sound.grow top idle follows, twins.left.sameOptions, twins.left.coherent.of_memo rfl⟩,
    ⟨twins.right.sound.grow top' idle' follows, twins.right.sameOptions, twins.right.coherent.of_memo rfl⟩, ?_,
    fun other grown inFlight => ?_, twins.memo, ?_⟩
  · simp only [Session.grow, twins.growing]
  · rw [Session.lookup_grow] at inFlight
    split at inFlight
    · rename_i same
      obtain ⟨old, found, -⟩ := Option.map_eq_some_iff.1 inFlight
      exact same ▸ twins.barred key old found
    · exact twins.barred other grown inFlight
  · rw [Session.length_grow]
    exact twins.reads

theorem growFrom {body : Expr} {base base' : Session} {cap left grown : Nat} (fits : c.Fits st)
    (inside : start ≤ c.index) (free : g.InterceptFree body)
    (agrees : g.AgreesOnTwins st options used start fuel body)
    (idle : base.growing.lookup ⟨.rule r, c.index⟩ = none) (idle' : base'.growing.lookup ⟨.rule r, c.index⟩ = none)
    (twins : g.Twins st options used start s t) (above : base.Above ⟨.rule r, c.index⟩ s)
    (above' : base'.Above ⟨.rule r, c.index⟩ t)
    (ran : Runner.growFrom (.rule r) cap (g.run fuel body) left grown c s = .ok (o, s'))
    (ran' : Runner.growFrom (.rule r) cap (g.run fuel body) left grown c t = .ok (o', t')) :
    o = o' ∧ g.Twins st options used start s' t' := by
  have agree := Runner.growFrom_agrees st
    (A := fun u v => g.Twins st options used start u v ∧ base.Above ⟨.rule r, c.index⟩ u ∧
      base'.Above ⟨.rule r, c.index⟩ v) (B := fun _ => False) ?_ ?_ ?_ ?_ ⟨twins, above, above'⟩ ran ran'
  · rcases agree with spoilt | ⟨same, twins, -⟩
    · cases spoilt
    · exact ⟨same, twins⟩
  · rintro u v ⟨twins, above, -⟩
    obtain ⟨growth, top⟩ := above.lookup
    exact ⟨growth, growth, top, by rw [twins.growing, top], rfl, rfl⟩
  · rintro s t o u o' v ⟨twins, above, above'⟩ passed passed'
    have advances := (run_advances fuel body (fun _ => free) fits twins.counted.left.sound).result passed
    have advances' := (run_advances fuel body (fun _ => free) fits twins.counted.right.sound).result passed'
    obtain ⟨rfl, twins⟩ := agrees fits inside twins.counted passed passed'
    exact .inr ⟨rfl, ⟨twins, above.continues (s.counted_continues.trans advances.continues),
      above'.continues (t.counted_continues.trans advances'.continues)⟩, advances.follows⟩
  · rintro u v f f' ⟨twins, above, above'⟩
    exact ⟨twins.annotate f f', above.continues (.annotate u f), above'.continues (.annotate v f')⟩
  · rintro u v pass ⟨twins, above, above'⟩ follows
    exact ⟨twins.grow above above' idle idle' follows, above.grow idle pass, above'.grow idle' pass⟩

theorem kept (twins : g.Twins st options used start s t) (inner : g.Twins st options used start u v)
    (above : s.Above key u) (above' : t.Above key v) (idle : s.growing.lookup key = none) (plain : st.plain)
    (closed : st.closed) (left : g.Trusted st options (s.kept (u.finish key) key o))
    (right : g.Trusted st options (t.kept (v.finish key) key o)) :
    g.Twins st options used start (s.kept (u.finish key) key o) (t.kept (v.finish key) key o) := by
  have idle' := idle
  rw [← twins.growing] at idle'
  have popped : (s.kept (u.finish key) key o).growing = s.growing := by
    rw [Session.kept_growing, above.finish idle]
  have popped' : (t.kept (v.finish key) key o).growing = t.growing := by
    rw [Session.kept_growing, above'.finish idle']
  have low (depth : Nat) (low : depth ≤ s.growing.length) : u.readsBelow depth = v.readsBelow depth := by
    obtain ⟨growth, top⟩ := above.growing
    refine inner.reads depth ?_
    rw [top]
    exact Nat.le_succ_of_le low
  refine ⟨left, right, ?_, ?_, fun r c uses grows fits inside ownless => ?_, fun depth below => ?_⟩
  · rw [popped, popped', twins.growing]
  · rw [popped]
    exact twins.barred
  · -- a rule in flight is not remembered
    obtain ⟨growth, top⟩ := above.lookup
    obtain ⟨growth', top'⟩ := above'.lookup
    have unknown := inner.left.sound.apart plain closed key growth top
    have unknown' := inner.right.sound.apart plain closed key growth' top'
    have forgotten : (u.finish key).remembers key = false := Session.remembers_eq_false.2 unknown
    have forgotten' : (v.finish key).remembers key = false := Session.remembers_eq_false.2 unknown'
    have read : (u.finish key).readsBelow s.growing.length = (v.finish key).readsBelow t.growing.length := by
      rw [twins.growing]
      exact low _ (Nat.le_refl _)
    have same := inner.memo r c uses grows fits inside ownless
    rw [Session.kept_memo, Session.kept_memo, read, forgotten, forgotten']
    simp only [Bool.false_eq_true, if_false]
    split
    · exact same
    · rw [List.lookup_cons, List.lookup_cons]
      split
      · rfl
      · exact same
  · rw [popped] at below
    rw [Session.readsBelow_kept, Session.readsBelow_kept, twins.reads depth below]
    exact congrArg _ (low depth below)

end Twins

section Rule
variable (plain : st.plain) (closed : st.closed) (found : g.rules[r]? = some rule)
  (mode : rule.mode = .leftRecursive) (free : g.InterceptFree (.rule r)) (uses : used r)
  (own : g.KeepsCoherent st options (fuel + 1) (.rule r) ∧ g.GivesOwn st options (fuel + 1) (.rule r))
  (agrees : g.AgreesOnTwins st options used start fuel rule.body)
include plain closed found mode free uses own agrees

theorem ownless_agrees (fits : c.Fits st) (inside : start ≤ c.index) (twins : g.Twins st options used start s t)
    (ownless : g.Ownless st options ⟨.rule r, c.index⟩) (idle : s.growing.lookup ⟨.rule r, c.index⟩ = none)
    (ran : g.run (fuel + 1) (.rule r) c s = .ok (o, s')) (ran' : g.run (fuel + 1) (.rule r) c t = .ok (o', t')) :
    o = o' ∧ g.Twins st options used start s' t' := by
  have grows : g.Grows (.rule r) := ⟨r, rule, rfl, found, mode⟩
  have left := twins.left.run own.1 free fits ran
  have right := twins.right.run own.1 free fits ran'
  have idle' := idle
  rw [← twins.growing] at idle'
  have same := twins.memo r c uses grows fits inside ownless
  rw [run_leftRecursive found fuel mode] at ran ran'
  cases known : (s.memo.lookup ⟨.rule r, c.index⟩).bind (·.outcome? c.context.isSome) with
  | some o₁ =>
      obtain ⟨u, alike, hit⟩ := Runner.leftRecursive_hit rule.title (g.run fuel rule.body) idle known
      obtain ⟨v, alike', hit'⟩ := Runner.leftRecursive_hit rule.title (g.run fuel rule.body) idle' (same ▸ known)
      rw [hit] at ran
      rw [hit'] at ran'
      cases ran
      cases ran'
      exact ⟨rfl, twins.congr alike.options alike'.options alike.memo alike'.memo alike.growing alike'.growing
        alike.read alike'.read⟩
  | none =>
      -- neither side remembers the rule, so both grow a seed from the same start
      have known' := same ▸ known
      obtain ⟨before, rest, remains, -, -⟩ := fits.remaining
      obtain ⟨first, alike, turns⟩ := Runner.leftRecursive_grow rule.title remains idle known
      obtain ⟨first', alike', turns'⟩ := Runner.leftRecursive_grow rule.title remains idle' known'
      rw [turns, twins.left.sameOptions] at ran
      rw [turns', twins.right.sameOptions] at ran'
      obtain ⟨⟨o, u⟩, grown, result⟩ := bind_eq_ok.1 ran
      cases result
      obtain ⟨⟨o', v⟩, grown', result'⟩ := bind_eq_ok.1 ran'
      cases result'
      have unknown : first.memo.lookup ⟨.rule r, c.index⟩ = none := by
        rw [alike.memo]
        exact Runner.miss_unknown twins.left.sound fits plain closed known
      have unknown' : first'.memo.lookup ⟨.rule r, c.index⟩ = none := by
        rw [alike'.memo]
        exact Runner.miss_unknown twins.right.sound fits plain closed known'
      have begun := (twins.untracked.congr alike.options alike'.options alike.memo alike'.memo alike.growing
        alike'.growing alike.read alike'.read).begin grows unknown unknown'
        (Runner.firstSeed_follows fits rule.title rest) alike.read alike'.read ownless
      obtain ⟨rfl, inner⟩ := begun.growFrom fits inside (free.body found) agrees idle idle' (.begin alike _ _)
        (.begin alike' _ _) grown grown'
      have pass (s : Session) (sound : s.Sound g st) :=
        run_advances fuel rule.body (fun _ => free.body found) fits sound
      have above := ((Runner.grown_safely found mode fits twins.left.sound idle known pass alike rule.title rest _
        _).result grown).2.2
      have above' := ((Runner.grown_safely found mode fits twins.right.sound idle' known' pass alike' rule.title rest _
        _).result grown').2.2
      exact ⟨rfl, twins.kept inner above above' idle plain closed left right⟩

theorem leftRecursive_agrees : g.AgreesOnTwins st options used start (fuel + 1) (.rule r) := by
  intro c s t o s' o' t' fits inside twins ran ran'
  cases inFlight : s.growing.lookup ⟨.rule r, c.index⟩ with
  | some growth =>
      rw [run_leftRecursive found fuel mode] at ran ran'
      rw [Runner.leftRecursive_seed rule.title _ inFlight] at ran
      rw [Runner.leftRecursive_seed rule.title _ (twins.growing ▸ inFlight)] at ran'
      cases ran
      cases ran'
      exact ⟨rfl, twins.reread growth⟩
  | none =>
      rcases g.ownless_or_own plain fits with ownless | ⟨n, o₁, value⟩
      · exact ownless_agrees plain closed found mode free uses own agrees fits inside twins ownless inFlight ran ran'
      · -- whatever each side remembers, it gives the value of the rule and spares the rules without one
        have barred := twins.barred
        obtain ⟨rfl, spares⟩ := own.2.value fits twins.left.sound twins.left.sameOptions twins.left.coherent barred
          value ran
        rw [← twins.growing] at barred
        obtain ⟨rfl, spares'⟩ := own.2.value fits twins.right.sound twins.right.sameOptions twins.right.coherent barred
          value ran'
        have advances := (run_advances _ _ (fun _ => free) fits twins.left.sound).result ran
        have advances' := (run_advances _ _ (fun _ => free) fits twins.right.sound).result ran'
        refine ⟨rfl, twins.left.run own.1 free fits ran, twins.right.run own.1 free fits ran', ?_, ?_, ?_, ?_⟩
        · rw [advances.continues.growing, advances'.continues.growing, twins.growing]
        · rw [advances.continues.growing]
          exact twins.barred
        · intro r c uses grows fits inside ownless
          rw [spares.memo _ ownless, spares'.memo _ ownless]
          exact twins.memo r c uses grows fits inside ownless
        · intro depth low
          rw [advances.continues.growing] at low
          rw [spares.reads depth low, spares'.reads depth (by rw [twins.growing]; exact low)]
          exact twins.reads depth low

end Rule

theorem composite_agrees (free : g.InterceptFree e) (composite : e.isComposite)
    (parts : ∀ p, p.Part e → g.AgreesOnTwins st options used start fuel p) :
    g.AgreesOnTwins st options used start (fuel + 1) e := by
  intro c s t o s' o' t' fits inside twins ran ran'
  have orderly := e.routine_disciplined composite fits (Expr.description g.rules) fuel
  rw [g.run_composite composite] at ran ran'
  have agree := orderly.agrees (A := g.Twins st options used start) (B := fun _ => False) ?_
    (fun _ _ => False.elim) ?_ (fun _ _ _ _ _ _ _ => False.elim) twins ran ran'
  · exact agree.resolve_left id
  · intro s t f twins
    exact twins.annotate f f
  · intro p d s t o s' o' t' part here twins ran ran'
    have advances := (run_advances fuel p (fun _ => free.part part) here.fits twins.right.sound).result ran'
    exact ⟨advances.follows, .inr (parts p part here.fits (Nat.le_trans inside here.le) twins ran ran')⟩

theorem run_agrees (memoFree : g.MemoFree) (plain : st.plain) (closed : st.closed) (options : Options) (start : Nat)
    (fuel : Nat) (free : g.InterceptFree e) (within : ∀ r, g.Uses e (.rule r) → used r) :
    g.AgreesOnTwins st options used start fuel e := by
  induction fuel, e, free using InterceptFree.induct with
  | zero e free =>
      intro c s t o s' o' t' fits inside twins ran
      cases ran
  | composite fuel e free composite ih =>
      exact composite_agrees free composite fun p part => ih p part fun r uses => within r (.part part uses)
  | missing fuel r free found =>
      intro c s t o s' o' t' fits inside twins ran ran'
      obtain ⟨failed, rfl⟩ := (run_missing_eq_ok fuel found).1 ran
      obtain ⟨failed', rfl⟩ := (run_missing_eq_ok fuel found).1 ran'
      rw [failed] at failed'
      cases failed'
      exact ⟨rfl, twins⟩
  | plain fuel r rule free found mode ih =>
      intro c s t o s' o' t' fits inside twins ran ran'
      rw [run_plain found fuel mode] at ran ran'
      exact ih (fun r uses => within r (.body found uses)) fits inside twins ran ran'
  | memo fuel r rule free found mode => exact absurd mode (memoFree r rule found)
  | leftRecursive fuel r rule free found mode ih =>
      exact leftRecursive_agrees plain closed found mode free (within r (.self _))
        (run_own memoFree plain closed options (fuel + 1) free) (ih fun r uses => within r (.body found uses))

/-- Of the left-recursive rules that the expression uses, the session remembers nothing from the cursor on, unless they
have values of their own there. -/
def Untangled (g : Grammar) (options : Options) (s : Session) (q : Expr) (d : Cursor) : Prop :=
  ∀ r rule index o, g.Uses q (.rule r) → g.rules[r]? = some rule → rule.mode = .leftRecursive → d.index ≤ index →
    s.memo.lookup ⟨.rule r, index⟩ = some (.outcome o) → ∃ n own, g.Own options n (.rule r) { d with index } own

theorem Trusted.fresh (options : Options) : g.Trusted st options (.fresh options {}) :=
  ⟨.fresh options {}, rfl, .fresh options⟩

section Erased
variable {a b : View} {q : Expr} {d : Cursor} (plain : st.plain) (closed : st.closed) (free : g.InterceptFree q)
  (fits : d.Fits st)
include plain closed free fits

theorem run_gives_own (own : g.Own options n q d o) (related : (g.erasing st).Related a b s t)
    (trusted : g.withoutMemo.Trusted st options t) (idle : t.growing = []) (ran : g.run fuel q d s = .ok (o', s')) :
    o = o' := by
  -- the run happens just so without memoized rules
  obtain ⟨fuel', t', ran', -⟩ := g.erasing_simulates plain closed fuel free fits related ran
  have gives := (run_own g.withoutMemo_memoFree plain closed options fuel' free.withoutMemo).2
  refine (gives.value fits trusted.sound trusted.sameOptions trusted.coherent (fun key growth inFlight => ?_)
    own.withoutMemo ran').1
  rw [idle] at inFlight
  cases inFlight

omit free in
theorem Untangled.twins (untangled : g.Untangled options s q d) (related : (g.erasing st).Related a b s t)
    (trusted : g.withoutMemo.Trusted st options t) (idle : t.growing = []) :
    g.withoutMemo.Twins st options (fun r => g.Uses q (.rule r)) d.index t (.fresh options {}) := by
  refine ⟨trusted, .fresh options, idle.symm, fun key growth inFlight => ?_, ?_, fun depth low => ?_⟩
  · rw [idle] at inFlight
    cases inFlight
  · intro r c uses grows fits' inside ownless
    obtain ⟨r', rule, same, found, mode⟩ := withoutMemo_grows.1 grows
    cases same
    refine Option.eq_none_iff_forall_not_mem.2 fun entry known => ?_
    have known' : s.memo.lookup ⟨.rule r, c.index⟩ = some entry :=
      (related.agree.memo ⟨.rule r, c.index⟩ (withoutMemo_grows.1 grows)).trans known
    obtain ⟨o, rfl, -, -⟩ := related.left.readable known' plain closed fits'
    obtain ⟨n, own, value⟩ := untangled r rule c.index o uses found mode inside known'
    have here : Cursor.Fits st { d with index := c.index } := ⟨fits.text, fits'.boundary, fits.context⟩
    rw [here.eq_of_index plain fits' rfl] at value
    exact ownless.not_own fits' value.withoutMemo
  · rw [idle, List.length_nil] at low
    cases Nat.le_zero.1 low
    rw [Session.readsBelow_zero, Session.readsBelow_zero]

end Erased

/-- What a session has evaluated before does not matter for an expression that can be evaluated with every
left-recursive rule in a session of its own, nor for one of whose rules the session remembers nothing but what has been
evaluated so: it gives the same outcome after any run as in a fresh session. What is remembered of such a rule is what
it gives in a fresh session. -/
theorem history_independent (g : Grammar) (p q : Expr) (c d : Cursor) (options : Options) (fuel : Nat)
    (o : Outcome) (s : Session) (free : g.InterceptFree p) (free' : g.InterceptFree q) (text : d.text = c.text)
    (boundary : (Text.dropBytes? c.index c.text).isSome) (boundary' : (Text.dropBytes? d.index c.text).isSome)
    (plain : c.context = none) (plain' : d.context = none) (ran : g.run fuel p c (.fresh options {}) = .ok (o, s))
    (apart : (∃ n own, g.Own options n q d own) ∨ g.Untangled options s q d) :
    (∀ fuel₁ fuel₂ o₁ o₂ t₁ t₂, g.run fuel₁ q d s = .ok (o₁, t₁) →
      g.run fuel₂ q d (.fresh options {}) = .ok (o₂, t₂) → o₁ = o₂) ∧
    ∀ r rule o₁, q = .rule r → g.rules[r]? = some rule → rule.mode ≠ .plain →
      s.memo.lookup ⟨.rule r, d.index⟩ = some (.outcome o₁) →
      ∀ fuel₂ o₂ t₂, g.run fuel₂ q d (.fresh options {}) = .ok (o₂, t₂) → o₁ = o₂ := by
  let st : Setting := ⟨c.text, true, true⟩
  have fits : c.Fits st := ⟨rfl, boundary, fun _ => plain⟩
  have fits' : d.Fits st := ⟨text, boundary', fun _ => plain'⟩
  have fresh := Related.fresh g st options
  obtain ⟨fuel', s', ran', related⟩ := g.erasing_simulates rfl rfl fuel free fits fresh ran
  have continues := ((run_advances fuel' p (fun _ => free.withoutMemo) fits fresh.right).result ran').continues
  have trusted : g.withoutMemo.Trusted st options s' := .run (.fresh options)
    (run_own g.withoutMemo_memoFree rfl rfl options fuel' free.withoutMemo).1 free.withoutMemo fits ran'
  have same {fuel₁ fuel₂ : Nat} {o₁ o₂ : Outcome} {t₁ t₂ : Session} (after : g.run fuel₁ q d s = .ok (o₁, t₁))
      (first : g.run fuel₂ q d (.fresh options {}) = .ok (o₂, t₂)) : o₁ = o₂ := by
    rcases apart with ⟨n, own, alone⟩ | untangled
    · have value := run_gives_own rfl rfl free' fits' alone related trusted continues.growing after
      exact value.symm.trans (run_gives_own rfl rfl free' fits' alone fresh (.fresh options) rfl first)
    · obtain ⟨m₁, u₁, after, -⟩ := g.erasing_simulates rfl rfl fuel₁ free' fits' related after
      obtain ⟨m₂, u₂, first, -⟩ := g.erasing_simulates rfl rfl fuel₂ free' fits' fresh first
      have twins := untangled.twins rfl rfl fits' related trusted continues.growing
      exact (run_agrees g.withoutMemo_memoFree rfl rfl options d.index (max m₁ m₂) free'.withoutMemo
        (fun r uses => uses.of_withoutMemo) fits' (Nat.le_refl _) twins (run_mono (Nat.le_max_left m₁ m₂) after)
        (run_mono (Nat.le_max_right m₁ m₂) first)).1
  constructor
  · intro fuel₁ fuel₂ o₁ o₂ t₁ t₂ after first
    exact same after first
  · rintro r rule o₁ rfl found mode known fuel₂ o₂ t₂ first
    have sound := ((run_advances fuel p (fun _ => free) fits fresh.left).result ran).sound
    obtain ⟨fuel₁, t₁, hit, -⟩ := permanent_of_known found mode rfl rfl fits' known s sound fun _ _ known => known
    exact same hit first

theorem history_independent_operand :
    let g : Grammar := { rules := [
      ⟨.leftRecursive, "sum", .orElse (.pair (.pair (.rule 0) (.prim (.char '+'))) (.rule 1)) (.rule 1)⟩,
      ⟨.leftRecursive, "product", .orElse (.pair (.pair (.rule 1) (.prim (.char '*'))) (.prim .digit)) (.prim .digit)⟩,
      ⟨.leftRecursive, "R", .orElse (.pair (.rule 3) (.prim (.char 'x'))) (.prim (.char 'a'))⟩,
      ⟨.leftRecursive, "Q", .orElse (.adapt .attempt (.pair (.rule 2) (.prim (.char 'x')))) (.rule 2)⟩] }
    let c : Cursor := ⟨['1', '+', '2', '*', '3', 'a', 'x', 'x'], 0, none⟩
    let d : Cursor := { c with index := 2 }
    let both : Expr := .pair (.rule 1) (.rule 2)
    ∃ o s, g.run 12 (.rule 0) c (.fresh {} {}) = .ok (o, s) ∧
      o.value?.map Value.inspect = some "(('1', '+'), (('2', '*'), '3'))" ∧ o.index = 5 ∧
      (∃ product t₁ t₂, g.run 12 (.rule 1) d s = .ok (product, t₁) ∧
        g.run 12 (.rule 1) d (.fresh {} {}) = .ok (product, t₂) ∧
        product.value?.map Value.inspect = some "(('2', '*'), '3')" ∧ product.index = 5 ∧
        ∀ fuel₁ fuel₂ o₁ o₂ t₁ t₂, g.run fuel₁ (.rule 1) d s = .ok (o₁, t₁) →
          g.run fuel₂ (.rule 1) d (.fresh {} {}) = .ok (o₂, t₂) → o₁ = o₂) ∧
      ∃ whole t₁ t₂, g.run 12 both d s = .ok (whole, t₁) ∧ g.run 12 both d (.fresh {} {}) = .ok (whole, t₂) ∧
        whole.value?.map Value.inspect = some "((('2', '*'), '3'), (('a', 'x'), 'x'))" ∧ whole.index = 8 ∧
        ∀ fuel₁ fuel₂ o₁ o₂ t₁ t₂, g.run fuel₁ both d s = .ok (o₁, t₁) →
          g.run fuel₂ both d (.fresh {} {}) = .ok (o₂, t₂) → o₁ = o₂ := by
  intro g c d both
  let shown (r : Outcome × Session) := (r.1.value?.map Value.inspect, r.1.index)
  let seen := (some "(('2', '*'), '3')", 5)
  let seenBoth := (some "((('2', '*'), '3'), (('a', 'x'), 'x'))", 8)
  obtain ⟨⟨o, s⟩, ran, left⟩ := eq_ok_of_toOption (x := g.run 12 (.rule 0) c (.fresh {} {}))
    (f := fun r => ((shown r, r.2.memo.map (·.1)),
      ((g.run 12 (.rule 1) d r.2).toOption.map shown, (g.run 12 both d r.2).toOption.map shown)))
    (b := (((some "(('1', '+'), (('2', '*'), '3'))", 5), [⟨.rule 0, 0⟩, ⟨.rule 1, 2⟩, ⟨.rule 1, 0⟩]),
      (some seen, some seenBoth))) (by decide +kernel)
  have keys : s.memo.map (·.1) = [⟨.rule 0, 0⟩, ⟨.rule 1, 2⟩, ⟨.rule 1, 0⟩] := congrArg (·.1.2) left
  obtain ⟨⟨own, u⟩, alone⟩ :=
    eq_ok_of_isOk (x := g.runCalling .alone 12 (.rule 1) d (.fresh {} {})) (by decide +kernel)
  -- of the rules that are used from here on, the product is the only one that is remembered
  have untangled : g.Untangled {} s both d := by
    intro r rule index o' _ _ _ inside known
    obtain ⟨before, behind, split, -⟩ := List.lookup_eq_some_iff.1 known
    have member : (⟨.rule r, index⟩ : Key) ∈ s.memo.map (·.1) := by simp [split]
    simp only [keys, List.mem_cons, Key.mk.injEq, ParserId.rule.injEq, List.not_mem_nil, or_false] at member
    obtain ⟨rfl, rfl⟩ | ⟨rfl, rfl⟩ | ⟨rfl, rfl⟩ := member
    · cases inside
    · exact ⟨12, own, u, alone⟩
    · cases inside
  have free (e : Expr) (simple : e.isSimple) : g.InterceptFree e := .of_isSimple rfl simple
  have independent := history_independent g (.rule 0) (.rule 1) c d {} 12 o s (free _ rfl) (free _ rfl) rfl
    (by decide) (by decide) rfl rfl ran (.inl ⟨12, own, u, alone⟩)
  have independentBoth := history_independent g (.rule 0) both c d {} 12 o s (free _ rfl) (free _ rfl) rfl
    (by decide) (by decide) rfl rfl ran (.inr untangled)
  refine ⟨o, s, ran, congrArg (·.1.1.1) left, congrArg (·.1.1.2) left, ?_, ?_⟩
  · obtain ⟨⟨o₁, t₁⟩, after, -⟩ := eq_ok_of_toOption (congrArg (·.2.1) left)
    obtain ⟨⟨o₂, t₂⟩, first, shows⟩ := eq_ok_of_toOption (x := g.run 12 (.rule 1) d (.fresh {} {})) (f := shown)
      (b := seen) (by decide +kernel)
    obtain rfl := independent.1 12 12 _ _ _ _ after first
    exact ⟨o₁, t₁, t₂, after, first, congrArg Prod.fst shows, congrArg Prod.snd shows, independent.1⟩
  · obtain ⟨⟨o₁, t₁⟩, after, -⟩ := eq_ok_of_toOption (congrArg (·.2.2) left)
    obtain ⟨⟨o₂, t₂⟩, first, shows⟩ := eq_ok_of_toOption (x := g.run 12 both d (.fresh {} {})) (f := shown)
      (b := seenBoth) (by decide +kernel)
    obtain rfl := independentBoth.1 12 12 _ _ _ _ after first
    exact ⟨o₁, t₁, t₂, after, first, congrArg Prod.fst shows, congrArg Prod.snd shows, independentBoth.1⟩

/-- Two rules that are left-recursive through each other: `R := '!' &Q R | Q 'x' | 'a'` and `Q := R 'x' | R`. At index 1
of `!axx`, `R` gets to the end in a fresh session. After a run of `R` from the start, which looks at `Q` first, what is
remembered of `R` at index 1 is a failure. -/
theorem history_matters_through_two_rules :
    let g : Grammar := { rules := [
      ⟨.leftRecursive, "R", .orElse
        (.pair (.prim (.char '!')) (.pair (.adapt .lookahead (.rule 1)) (.rule 0)))
        (.orElse (.pair (.rule 1) (.prim (.char 'x'))) (.prim (.char 'a')))⟩,
      ⟨.leftRecursive, "Q", .orElse (.adapt .attempt (.pair (.rule 0) (.prim (.char 'x')))) (.rule 0)⟩] }
    let c : Cursor := ⟨['!', 'a', 'x', 'x'], 0, none⟩
    let d : Cursor := { c with index := 1 }
    g.InterceptFree (.rule 0) ∧ (Text.dropBytes? c.index c.text).isSome ∧ (Text.dropBytes? d.index c.text).isSome ∧
      ∃ fuel o s, g.run fuel (.rule 0) c (.fresh {} {}) = .ok (o, s) ∧
        ¬∀ fuel₁ fuel₂ o₁ o₂ t₁ t₂, g.run fuel₁ (.rule 0) d s = .ok (o₁, t₁) →
          g.run fuel₂ (.rule 0) d (.fresh {} {}) = .ok (o₂, t₂) → o₁ = o₂ := by
  intro g c d
  refine ⟨.of_isSimple rfl rfl, rfl, rfl, ?_⟩
  obtain ⟨⟨o, s⟩, ran, left⟩ := eq_ok_of_toOption (x := g.run 40 (.rule 0) c (.fresh {} {}))
    (f := fun r => (g.run 40 (.rule 0) d r.2).toOption.map (·.1.isSuccess)) (b := some false) (by decide +kernel)
  obtain ⟨⟨o₁, t₁⟩, after, failed⟩ := eq_ok_of_toOption left
  obtain ⟨⟨o₂, t₂⟩, first, succeeded⟩ := eq_ok_of_toOption (x := g.run 40 (.rule 0) d (.fresh {} {}))
    (f := (·.1.isSuccess)) (b := true) (by decide +kernel)
  refine ⟨40, o, s, ran, fun same => ?_⟩
  obtain rfl : o₁ = o₂ := same 40 40 _ _ _ _ after first
  exact absurd (failed.symm.trans succeeded) (by decide)

end Grammar
end ParseEngine
