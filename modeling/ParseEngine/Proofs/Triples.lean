import ParseEngine.Proofs.Arithmetic
import ParseEngine.Proofs.Progress

namespace ParseEngine

def Cursor.past (c : Cursor) (taken : List Char) : Cursor :=
  { c with index := c.index + Text.byteLength taken }

theorem Cursor.past_append (c : Cursor) (first second : List Char) :
    (c.past first).past second = c.past (first ++ second) := by
  simp [past, Nat.add_assoc]

theorem Cursor.lt_past (c : Cursor) {taken : List Char} (nonempty : taken ≠ []) : c.index < (c.past taken).index :=
  Nat.lt_add_of_pos_right (Text.byteLength_pos nonempty)

theorem Cursor.Fits.past {st : Setting} {c : Cursor} {taken rest : List Char} (fits : c.Fits st)
    (remains : c.remaining = .ok (taken ++ rest)) :
    c.advance (Text.byteLength taken) = .ok (c.past taken) ∧ (c.past taken).Fits st ∧
      (c.past taken).remaining = .ok rest := by
  obtain ⟨before, rest', remains', split, size⟩ := fits.remaining
  rw [remains] at remains'
  cases remains'
  have total : Text.byteLength st.text = c.index + Text.byteLength taken + Text.byteLength rest := by
    simp only [split, Text.byteLength_append, size, Nat.add_assoc]
  have dropped : Text.dropBytes? (c.index + Text.byteLength taken) st.text = some rest := by
    have dropped := Text.dropBytes?_append (before ++ taken) rest
    rwa [Text.byteLength_append, size, List.append_assoc, ← split] at dropped
  refine ⟨?_, ⟨fits.text, ?_, fits.context⟩, ?_⟩
  · rw [Cursor.advance, Cursor.moveTo, Cursor.length, fits.text, if_pos (by omega)]
    simp [Cursor.past, fits.text]
  · simp [Cursor.past, dropped]
  · simp [Cursor.remaining, Cursor.past, fits.text, dropped]

namespace Calculator

def Level.number : Level → Nat
  | .product => 0
  | .sum => 1

theorem Level.number_injective {first second : Level} (same : first.number = second.number) : first = second := by
  cases first <;> cases second <;> first | rfl | cases same

def Parses (phrase : Phrase) (c : Cursor) (o : Outcome) : Prop :=
  ∃ text, c.remaining = .ok text ∧
    ((∃ taken x, Takes phrase text taken x ∧ o = .success (.float x) (c.past taken)) ∨
      Refuses phrase text ∧ o.isSuccess = false)

structure Ready (st : Setting) (s : Session) : Prop where
  plain : st.plain
  sound : s.Sound grammar st
  unbounded : s.options.growthBound = none
  known : ∀ level c o, c.Fits st → s.memo.lookup ⟨.rule (Level.number level), c.index⟩ = some (.outcome o) →
    Parses (.chain level) c o

/-- With some fuel at least, the expression returns an outcome with the property, and a session that is ready. -/
def Ensures (st : Setting) (n : Nat) (e : Expr) (c : Cursor) (s : Session) (Q : Outcome → Prop) : Prop :=
  ∀ fuel, n ≤ fuel → ∃ o t, grammar.run fuel e c s = .ok (o, t) ∧ Q o ∧ Ready st t ∧ t.growing = s.growing

variable {st : Setting} {n m : Nat} {e p q : Expr} {c d : Cursor} {s t : Session} {P Q : Outcome → Prop} {o : Outcome}
  {v : Value} {prim : Prim}

namespace Ready

theorem congr (ready : Ready st s) (options : t.options = s.options) (memo : t.memo = s.memo)
    (growing : t.growing = s.growing) : Ready st t := by
  refine ⟨ready.plain, ready.sound.congr memo growing, options ▸ ready.unbounded, fun level c o fits known => ?_⟩
  rw [memo] at known
  exact ready.known level c o fits known

theorem fresh (plain : st.plain) (options : Options) (unbounded : options.growthBound = none) :
    Ready st (.fresh options {}) :=
  ⟨plain, .fresh options {}, unbounded, fun _ _ _ _ known => by cases known⟩

theorem annotate (ready : Ready st s) (f : Journal → Journal) : Ready st (s.annotate f) :=
  ready.congr rfl rfl rfl

variable {level : Level} {growth : Growth} {key : Key} {base : List (Key × Growth)}

theorem begin (ready : Ready st s) (grows : grammar.Grows key.parser)
    (unknown : st.plain → st.closed → s.memo.lookup key = none) (follows : o.Follows st key.index) :
    Ready st (s.begin key o) :=
  ⟨ready.plain, ready.sound.begin grows unknown follows, ready.unbounded, ready.known⟩

theorem grow (ready : Ready st s) (top : s.growing = (key, growth) :: base) (idle : base.lookup key = none)
    (follows : o.Follows st key.index) : Ready st (s.grow key o) :=
  ⟨ready.plain, ready.sound.grow top idle follows, ready.unbounded, ready.known⟩

theorem finish (ready : Ready st t) (before : Ready st s) (top : t.growing = (key, growth) :: s.growing)
    (idle : s.growing.lookup key = none) : Ready st (t.finish key) :=
  ⟨ready.plain, ready.sound.finish before.sound top idle, ready.unbounded, ready.known⟩

theorem remember (ready : Ready st s) (fits : c.Fits st) (follows : o.Follows st c.index)
    (idle : s.growing.lookup ⟨.rule level.number, c.index⟩ = none) (parses : Parses (.chain level) c o) :
    Ready st (s.remember ⟨.rule level.number, c.index⟩ (.outcome o)).2 := by
  refine ⟨ready.plain, ready.sound.remember follows fun _ _ => idle, ?_, fun level' d o' fits' known => ?_⟩
  · rw [(s.remember_continues _ _).options]
    exact ready.unbounded
  · rw [Session.lookup_remember] at known
    split at known
    · rename_i new
      obtain ⟨sameRule, sameIndex⟩ := Key.mk.inj new.1
      cases known
      cases fits'.eq_of_index ready.plain fits sameIndex
      cases Level.number_injective (ParserId.rule.inj sameRule)
      exact parses
    · exact ready.known level' d o' fits' known

theorem kept (ready : Ready st t) (fits : c.Fits st) (follows : o.Follows st c.index)
    (idle : t.growing.lookup ⟨.rule level.number, c.index⟩ = none) (parses : Parses (.chain level) c o) :
    Ready st (s.kept t ⟨.rule level.number, c.index⟩ o) := by
  have resumed : Ready st (s.resume t) := ready.congr rfl rfl rfl
  unfold Session.kept
  split
  · exact resumed
  · exact resumed.remember fits follows idle parses

end Ready

namespace Ensures

theorem weaken (ensures : Ensures st n e c s P) (imp : ∀ o, P o → Q o) : Ensures st n e c s Q := by
  intro fuel enough
  obtain ⟨o, t, ran, holds, rest⟩ := ensures fuel enough
  exact ⟨o, t, ran, imp o holds, rest⟩

theorem more (ensures : Ensures st n e c s P) (le : n ≤ m) : Ensures st m e c s P :=
  fun fuel enough => ensures fuel (Nat.le_trans le enough)

theorem follows (ensures : Ensures st n e c s P) (free : grammar.InterceptFree e) (fits : c.Fits st)
    (ready : Ready st s) : Ensures st n e c s fun o => P o ∧ o.Follows st c.index := by
  intro fuel enough
  obtain ⟨o, t, ran, holds, rest⟩ := ensures fuel enough
  exact ⟨o, t, ran, ⟨holds, ((Grammar.run_advances fuel e (fun _ => free) fits ready.sound).result ran).follows⟩, rest⟩

theorem ofPrim (ran : prim.run c = .ok o) (ready : Ready st s) : Ensures st 1 (.prim prim) c s (· = o) := by
  intro fuel enough
  obtain ⟨fuel, rfl⟩ := Nat.exists_eq_add_of_le' enough
  refine ⟨o, s, ?_, rfl, ready, rfl⟩
  simp only [Grammar.run, ran, ok_bind]
  rfl

theorem adapt {adapter : Adapter} (part : Ensures st n p c s P)
    (applied : ∀ o, P o → ∃ o', adapter.apply c o = .ok o' ∧ Q o') : Ensures st (n + 1) (.adapt adapter p) c s Q := by
  intro fuel enough
  obtain ⟨more, rfl⟩ := Nat.exists_eq_add_of_le' enough
  obtain ⟨o, t, ran, holds, rest⟩ := part (more + n) (Nat.le_add_left n more)
  obtain ⟨o', applied, holds'⟩ := applied o holds
  refine ⟨o', t, ?_, holds', rest⟩
  change Runner.adapt adapter (grammar.run (more + n) p) c s = _
  simp only [Runner.adapt, ran, ok_bind, applied]
  rfl

theorem map {f : Value → Value} (part : Ensures st n p c s fun o => Q (o.map f)) :
    Ensures st (n + 1) (.adapt (.map f) p) c s Q :=
  part.adapt fun o holds => ⟨o.map f, rfl, holds⟩

theorem pair (first : Ensures st n p c s P)
    (success : ∀ v d t, P (.success v d) → Ready st t → t.growing = s.growing →
      Ensures st n q d t fun o => Q (o.map (.pair v)))
    (failure : ∀ message d found, P (.failure message d found) → Q (.failure message d found)) :
    Ensures st (n + 1) (.pair p q) c s Q := by
  intro fuel enough
  obtain ⟨more, rfl⟩ := Nat.exists_eq_add_of_le' enough
  obtain ⟨o, t, ran, holds, ready, growing⟩ := first (more + n) (Nat.le_add_left n more)
  change ∃ o' t', Runner.pair (grammar.run (more + n) p) (grammar.run (more + n) q) c s = .ok (o', t') ∧ _
  cases o with
  | success v d =>
      obtain ⟨o', t', ran', holds', ready', growing'⟩ :=
        success v d t holds ready growing (more + n) (Nat.le_add_left n more)
      refine ⟨o'.map (.pair v), t', ?_, holds', ready', growing'.trans growing⟩
      simp only [Runner.pair, Runner.andThen, ran, ok_bind, Runner.mapValue, ran']
      rfl
  | failure message d found =>
      refine ⟨.failure message d found, t, ?_, failure message d found holds, ready, growing⟩
      simp only [Runner.pair, Runner.andThen, ran, ok_bind]
      rfl

theorem orElse (first : Ensures st n p c s P) (success : ∀ v d, P (.success v d) → Q (.success v d))
    (committed : ∀ message d found, P (.failure message d found) → d.index ≠ c.index → Q (.failure message d found))
    (second : ∀ message d found t, P (.failure message d found) → d.index = c.index → Ready st t →
      t.growing = s.growing → Ensures st n q c t Q) : Ensures st (n + 1) (.orElse p q) c s Q := by
  intro fuel enough
  obtain ⟨more, rfl⟩ := Nat.exists_eq_add_of_le' enough
  obtain ⟨o, t, ran, holds, ready, growing⟩ := first (more + n) (Nat.le_add_left n more)
  change ∃ o' t', Runner.orElse (grammar.run (more + n) p) (grammar.run (more + n) q) c s = .ok (o', t') ∧ _
  cases o with
  | success v d =>
      refine ⟨.success v d, t, ?_, success v d holds, ready, growing⟩
      simp only [Runner.orElse, ran, ok_bind]
      rfl
  | failure message d found =>
      by_cases here : d.index = c.index
      · obtain ⟨o', t', ran', holds', ready', growing'⟩ :=
          second message d found t holds here ready growing (more + n) (Nat.le_add_left n more)
        refine ⟨o', t', ?_, holds', ready', growing'.trans growing⟩
        simp only [Runner.orElse, ran, ok_bind, if_pos here, ran']
      · refine ⟨.failure message d found, t, ?_, committed message d found holds here, ready, growing⟩
        simp only [Runner.orElse, ran, ok_bind, if_neg here]
        rfl

theorem skipThen (first : Ensures st n p c s P)
    (success : ∀ v d t, P (.success v d) → Ready st t → t.growing = s.growing → Ensures st n q d t Q)
    (failure : ∀ message d found, P (.failure message d found) → Q (.failure message d found)) :
    Ensures st (n + 2) (.skipThen p q) c s Q := by
  refine .map (.pair first (fun v d t holds ready growing => ?_) failure)
  refine (success v d t holds ready growing).weaken fun o holds' => ?_
  cases o <;> exact holds'

theorem skip (first : Ensures st n p c s P)
    (success : ∀ v d t, P (.success v d) → Ready st t → t.growing = s.growing →
      Ensures st n q d t fun o => Q (o.map fun _ => v))
    (failure : ∀ message d found, P (.failure message d found) → Q (.failure message d found)) :
    Ensures st (n + 2) (.skip p q) c s Q := by
  refine .map (.pair first (fun v d t holds ready growing => ?_) failure)
  refine (success v d t holds ready growing).weaken fun o holds' => ?_
  cases o <;> exact holds'

end Ensures

section Tokens
variable {taken blanks rest : List Char} (fits : c.Fits st)
include fits

theorem one_success {kind : Kind} {description : String} {test : Char → Bool} {ch : Char}
    (remains : c.remaining = .ok (ch :: rest)) (passes : test ch = true) :
    (Prim.one kind description test).run c = .ok (.success (.char ch) (c.past [ch])) := by
  have remains' : c.remaining = .ok ([ch] ++ rest) := remains
  have moved := (fits.past remains').1
  simp only [Text.byteLength_cons, Text.byteLength_nil, Nat.add_zero] at moved
  simp only [Prim.run, Prim.runOne, remains, ok_bind, if_pos passes, moved]
  rfl

omit fits in
theorem one_failure {kind : Kind} {description : String} {test : Char → Bool} (remains : c.remaining = .ok rest)
    (stops : Numeral.Stops test rest) :
    ∃ message found, (Prim.one kind description test).run c = .ok (.failure message c found) := by
  refine ⟨"Expected " ++ description, Cursor.previewOf rest, ?_⟩
  have failed : Prim.expected description c =
      .ok (.failure ("Expected " ++ description) c (Cursor.previewOf rest)) :=
    Outcome.failAt_of_remaining remains _
  cases rest with
  | nil => simp only [Prim.run, Prim.runOne, remains, ok_bind, failed]
  | cons ch rest =>
      have fails : ¬test ch = true := by simp [stops ch rest rfl]
      simp only [Prim.run, Prim.runOne, remains, ok_bind, if_neg fails, failed]

theorem number_success {x : Float} (remains : c.remaining = .ok (taken ++ rest))
    (read : Numeral.number? (taken ++ rest) = some (taken, x)) :
    Prim.number.run c = .ok (.success (.float x) (c.past taken)) := by
  simp only [Prim.run, Prim.runNumber, remains, ok_bind, read, (fits.past remains).1]
  rfl

omit fits in
theorem number_failure (remains : c.remaining = .ok rest) (unread : Numeral.number? rest = none) :
    ∃ message found, Prim.number.run c = .ok (.failure message c found) := by
  refine ⟨"Expected number", Cursor.previewOf rest, ?_⟩
  simp only [Prim.run, Prim.runNumber, remains, ok_bind, unread]
  exact Outcome.failAt_of_remaining remains _

theorem spaces_success (remains : c.remaining = .ok (blanks ++ rest)) (blank : Blank blanks)
    (stops : Numeral.Stops Text.isBlank rest) : Prim.spaces.run c = .ok (.success .unit (c.past blanks)) := by
  simp only [Prim.run, Prim.runSpaces, remains, ok_bind, Numeral.takeWhile_of_stops blank stops, (fits.past remains).1]
  rfl

omit fits in
theorem split_blanks (text : List Char) :
    ∃ blanks rest, text = blanks ++ rest ∧ Blank blanks ∧ Numeral.Stops Text.isBlank rest :=
  ⟨text.takeWhile Text.isBlank, text.dropWhile Text.isBlank, List.takeWhile_append_dropWhile.symm,
    fun ch member => List.all_eq_true.1 List.all_takeWhile ch member, Numeral.stops_dropWhile Text.isBlank text⟩

theorem lexeme_success (ready : Ready st s) (ran : prim.run c = .ok (.success v (c.past taken)))
    (remains : c.remaining = .ok (taken ++ (blanks ++ rest))) (blank : Blank blanks)
    (stops : Numeral.Stops Text.isBlank rest) :
    Ensures st 3 (.lexeme (.prim prim)) c s (· = .success v (c.past (taken ++ blanks))) := by
  obtain ⟨-, fits', remains'⟩ := fits.past remains
  refine .skip (.ofPrim ran ready) (fun w d t same ready' _ => ?_) fun message d found same => by cases same
  cases same
  refine (Ensures.ofPrim (spaces_success fits' remains' blank stops) ready').weaken ?_
  rintro _ rfl
  rw [← Cursor.past_append]
  rfl

omit fits in
theorem lexeme_failure {message found : String} (ready : Ready st s)
    (ran : prim.run c = .ok (.failure message d found)) :
    Ensures st 3 (.lexeme (.prim prim)) c s (· = .failure message d found) :=
  .skip (.ofPrim ran ready) (fun w d t same => by cases same) fun _ _ _ same => same

end Tokens

end Calculator
end ParseEngine
