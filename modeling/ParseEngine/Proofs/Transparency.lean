import ParseEngine.Proofs.Simulation

/-!
Memoization is transparent: a grammar gives the same outcomes, and grows the same seeds, with and without it.

The two grammars are run side by side. What the one remembers of a memoized rule is settled in the other: it was
computed without reading the seed of a rule in flight, so that running the body again, whatever rules are in
flight by then, gives the same outcome and changes nothing.
-/

namespace ParseEngine

def Rule.withoutMemo (rule : Rule) : Rule :=
  { rule with mode := if rule.mode = .memo then .plain else rule.mode }

def Grammar.withoutMemo (g : Grammar) : Grammar :=
  { g with rules := g.rules.map Rule.withoutMemo }

mutual
theorem Expr.description_congr {rules rules' : List Rule}
    (titles : ∀ r : Nat, rules[r]?.map (·.title) = rules'[r]?.map (·.title)) :
    (e : Expr) → e.description rules = e.description rules'
  | .prim p => rfl
  | .adapt adapter p => by rw [Expr.description, Expr.description_congr titles p, Expr.description]
  | .chain p next => by rw [Expr.description, Expr.description_congr titles p, Expr.description]
  | .pair a b => by
      rw [Expr.description, Expr.description_congr titles a, Expr.description_congr titles b, Expr.description]
  | .orElse a b => by
      rw [Expr.description, Expr.description_congr titles a, Expr.description_congr titles b, Expr.description]
  | .many required p => by rw [Expr.description, Expr.description_congr titles p, Expr.description]
  | .count n p => by rw [Expr.description, Expr.description_congr titles p, Expr.description]
  | .sepBy required item separator => by
      rw [Expr.description, Expr.description_congr titles item, Expr.description_congr titles separator,
        Expr.description]
  | .foldLeft term op f => by rw [Expr.description, Expr.description_congr titles term, Expr.description]
  | .sequence parts => by rw [Expr.description, Expr.descriptions_congr titles parts, Expr.description]
  | .choice alternatives => by rw [Expr.description, Expr.descriptions_congr titles alternatives, Expr.description]
  | .rule r => by rw [Expr.description, titles r, Expr.description]
  | .detached p => by rw [Expr.description, Expr.description_congr titles p, Expr.description]
  | .steps parts script => by rw [Expr.description, Expr.description]
  | .intercept interceptor p => by rw [Expr.description, Expr.description_congr titles p, Expr.description]

theorem Expr.descriptions_congr {rules rules' : List Rule}
    (titles : ∀ r : Nat, rules[r]?.map (·.title) = rules'[r]?.map (·.title)) :
    (es : List Expr) → Expr.descriptions rules es = Expr.descriptions rules' es
  | [] => rfl
  | p :: rest => by
      rw [Expr.descriptions, Expr.description_congr titles p, Expr.descriptions_congr titles rest,
        Expr.descriptions]
end

namespace Grammar
variable {g : Grammar} {st : Setting} {e e' : Expr} {r : Nat} {rule : Rule}

theorem rules_withoutMemo (g : Grammar) (r : Nat) : g.withoutMemo.rules[r]? = g.rules[r]?.map Rule.withoutMemo :=
  List.getElem?_map

theorem withoutMemo_description (g : Grammar) :
    Expr.description g.rules = Expr.description g.withoutMemo.rules := by
  funext e
  refine Expr.description_congr (fun r => ?_) e
  rw [rules_withoutMemo, Option.map_map]
  rfl

theorem withoutMemo_memoFree (g : Grammar) : g.withoutMemo.MemoFree := by
  intro r rule found mode
  rw [rules_withoutMemo] at found
  obtain ⟨rule, -, rfl⟩ := Option.map_eq_some_iff.1 found
  simp only [Rule.withoutMemo] at mode
  split at mode
  · cases mode
  · rename_i other
    exact other mode

theorem rules_withoutMemo_of_ne (found : g.rules[r]? = some rule) (mode : rule.mode ≠ .memo) :
    g.withoutMemo.rules[r]? = some rule := by
  rw [rules_withoutMemo, found]
  simp [Rule.withoutMemo, mode]

theorem rules_withoutMemo_of_memo (found : g.rules[r]? = some rule) (mode : rule.mode = .memo) :
    g.withoutMemo.rules[r]? = some { rule with mode := .plain } := by
  rw [rules_withoutMemo, found]
  simp [Rule.withoutMemo, mode]

theorem withoutMemo_grows {id : ParserId} : g.withoutMemo.Grows id ↔ g.Grows id := by
  constructor
  · rintro ⟨r, rule, rfl, found, mode⟩
    rw [rules_withoutMemo] at found
    obtain ⟨rule, found', rfl⟩ := Option.map_eq_some_iff.1 found
    refine ⟨r, rule, rfl, found', ?_⟩
    simp only [Rule.withoutMemo] at mode
    split at mode
    · cases mode
    · exact mode
  · rintro ⟨r, rule, rfl, found, mode⟩
    exact ⟨r, rule, rfl, rules_withoutMemo_of_ne found (by simp [mode]), mode⟩

theorem Uses.of_withoutMemo (uses : g.withoutMemo.Uses e e') : g.Uses e e' := by
  induction uses with
  | self e => exact .self e
  | part part _ ih => exact .part part ih
  | body found _ ih =>
      rw [rules_withoutMemo] at found
      obtain ⟨rule, found', rfl⟩ := Option.map_eq_some_iff.1 found
      exact .body found' ih

theorem InterceptFree.withoutMemo (free : g.InterceptFree e) : g.withoutMemo.InterceptFree e :=
  fun interceptor p uses => free interceptor p uses.of_withoutMemo

def Backed (g : Grammar) (st : Setting) (memo memo' : List (Key × Entry)) : Prop :=
  ∀ r rule index entry, g.rules[r]? = some rule → rule.mode = .memo → memo.lookup ⟨.rule r, index⟩ = some entry →
    ∃ o, entry = .outcome o ∧
      ∀ c : Cursor, c.Fits st → c.index = index → g.withoutMemo.Settled st memo' rule.body c o

def erasing (g : Grammar) (st : Setting) : Pairing where
  left := g
  right := g.withoutMemo
  setting := st
  own := g.Grows
  extra := g.Backed st

def IsMemo (g : Grammar) (r : Nat) : Prop :=
  ∃ rule, g.rules[r]? = some rule ∧ rule.mode = .memo

theorem rules_withoutMemo_of_not (ordinary : ¬g.IsMemo r) : g.withoutMemo.rules[r]? = g.rules[r]? := by
  cases found : g.rules[r]? with
  | none => rw [rules_withoutMemo, found, Option.map_none]
  | some rule => exact rules_withoutMemo_of_ne found fun mode => ordinary ⟨rule, found, mode⟩

theorem mode_of_not (ordinary : ¬g.IsMemo r) (found : g.rules[r]? = some rule) :
    rule.mode = .plain ∨ rule.mode = .leftRecursive ∧ g.Grows (.rule r) := by
  cases mode : rule.mode with
  | plain => exact .inl rfl
  | memo => exact absurd ⟨rule, found, mode⟩ ordinary
  | leftRecursive => exact .inr ⟨rfl, r, rule, rfl, found, mode⟩

theorem not_grows_of_memo (found : g.rules[r]? = some rule) (mode : rule.mode = .memo) : ¬g.Grows (.rule r) := by
  rintro ⟨r', rule', same, found', mode'⟩
  cases same
  rw [found] at found'
  cases found'
  rw [mode] at mode'
  cases mode'

theorem Backed.extend {memo memo' : List (Key × Entry)} {key : Key} {entry : Entry}
    (backed : g.Backed st memo memo') (mine : g.Grows key.parser) (unknown : memo'.lookup key = none) :
    g.Backed st ((key, entry) :: memo) ((key, entry) :: memo') := by
  intro r rule index entry' found mode known
  have differs : (⟨.rule r, index⟩ : Key) ≠ key := by
    rintro rfl
    exact not_grows_of_memo found mode mine
  rw [List.lookup_cons, beq_eq_false_iff_ne.2 differs] at known
  obtain ⟨o, rfl, settled⟩ := backed r rule index entry' found mode known
  refine ⟨o, rfl, fun c fits same => (settled c fits same).mono fun other entry' _ known' => ?_⟩
  have differs' : other ≠ key := by
    rintro rfl
    rw [unknown] at known'
    cases known'
  rw [List.lookup_cons, beq_eq_false_iff_ne.2 differs']
  exact known'

theorem Backed.kept {s u : Session} {memo' : List (Key × Entry)} {c : Cursor} {o : Outcome}
    (backed : g.Backed st u.memo memo') (found : g.rules[r]? = some rule) (plain : st.plain) (fits : c.Fits st)
    (settled : u.readsBelow s.growing.length = false → g.withoutMemo.Settled st memo' rule.body c o) :
    g.Backed st (s.kept u ⟨.rule r, c.index⟩ o).memo memo' := by
  rw [Session.kept_memo]
  split
  · exact backed
  · split
    · exact backed
    · rename_i read _
      intro r' rule' index entry found' mode' known
      rw [List.lookup_cons] at known
      split at known
      · rename_i same
        cases eq_of_beq same
        rw [found] at found'
        cases found'
        cases known
        refine ⟨o, rfl, fun c' fits' same' => ?_⟩
        cases fits'.eq_of_index plain fits same'
        exact settled (by simpa using read)
      · exact backed r' rule' index entry found' mode' known

theorem Backed.hit {s : Session} {memo' : List (Key × Entry)} {c : Cursor} {o : Outcome}
    (backed : g.Backed st s.memo memo') (sound : s.Sound g st) (plain : st.plain) (closed : st.closed)
    (fits : c.Fits st) (found : g.rules[r]? = some rule) (mode : rule.mode = .memo)
    (known : (s.memo.lookup ⟨.rule r, c.index⟩).bind (·.outcome? c.context.isSome) = some o) :
    g.withoutMemo.Settled st memo' rule.body c o := by
  obtain ⟨entry, remembered, read⟩ := Option.bind_eq_some_iff.1 known
  obtain ⟨o', rfl, settled⟩ := backed r rule c.index entry found mode remembered
  obtain ⟨o'', same, read', -⟩ := sound.readable remembered plain closed fits
  cases same
  rw [read'] at read
  cases read
  exact settled c fits rfl

section Sides
variable {a b : View} {s s' t u v : Session} {c : Cursor} {o : Outcome} {fuel : Nat}

theorem body_settled (plain : st.plain) (closed : st.closed) (free : g.InterceptFree e)
    (simulates : (g.erasing st).Simulates fuel e) (fits : c.Fits st) (related : (g.erasing st).Related a b s t)
    (ran : g.run fuel e c s.missed = .ok (o, u)) (unread : u.readsBelow s.growing.length = false)
    (same : ∀ key : Key, g.Grows key.parser → u.memo.lookup key = v.memo.lookup key) :
    g.withoutMemo.Settled st v.memo e c o := by
  have start : (g.erasing st).Related a.untracked b.untracked s.missed t.untracked :=
    related.untracked.alike (.missed s) (.refl t.untracked)
  obtain ⟨fuel', w, ran', inner⟩ := simulates fits start ran
  have unread' : w.readsBelow t.untracked.growing.length = false := by
    rw [← unread]
    exact (related.agree.readsBelow_eq inner.agree).symm
  have settled := run_settled g.withoutMemo_memoFree plain closed free.withoutMemo fits start.right ran' unread'
  refine settled.mono fun key entry grows known => ?_
  have mine := withoutMemo_grows.1 grows
  rw [← same key mine, inner.agree.memo key mine]
  exact known

theorem erasing_memo (plain : st.plain) (closed : st.closed) (found : g.rules[r]? = some rule)
    (mode : rule.mode = .memo) (free : g.InterceptFree (.rule r))
    (simulates : (g.erasing st).Simulates fuel rule.body) : (g.erasing st).Simulates (fuel + 1) (.rule r) := by
  intro a b s s' t c o fits related ran
  have erased := rules_withoutMemo_of_memo found mode
  have sound := ((run_advances (fuel + 1) _ (fun _ => free) fits related.left).result ran).sound
  have ran' := ran
  rw [Pairing.left, erasing, run_memo found fuel mode] at ran'
  cases known : (s.memo.lookup ⟨.rule r, c.index⟩).bind (·.outcome? c.context.isSome) with
  | some o' =>
      obtain ⟨u, alike, hit⟩ := Runner.memo_hit (g.run fuel rule.body) known
      rw [hit] at ran'
      cases ran'
      have settled := related.extra.hit related.left plain closed fits found mode known
      obtain ⟨fuel', t', again, alike'⟩ := settled t related.right fun _ _ _ known => known
      refine ⟨fuel' + 1, t', ?_, related.alike alike alike'⟩
      rw [Pairing.right, erasing, run_plain erased fuel' rfl]
      exact again
  | none =>
      obtain ⟨note, miss⟩ := Runner.memo_miss (g.run fuel rule.body) known
      rw [miss] at ran'
      obtain ⟨⟨o', u⟩, evaluated, result⟩ := bind_eq_ok.1 ran'
      cases result
      have start : (g.erasing st).Related a.untracked { b with read := t.shallowestRead } s.missed t :=
        ⟨related.left.congr rfl rfl, related.right,
          related.agree.untracked_left.alike (.missed s) (.refl t), related.extra⟩
      obtain ⟨fuel', v, again, inner⟩ := simulates fits start evaluated
      have foreign : ¬(g.erasing st).own (Key.parser ⟨.rule r, c.index⟩) := not_grows_of_memo found mode
      refine ⟨fuel' + 1, v, ?_, sound, inner.right, ?_, ?_⟩
      · rw [Pairing.right, erasing, run_plain erased fuel' rfl]
        exact again
      · exact (related.agree.kept_left inner.agree foreign).alike (.annotate _ _) (.refl v)
      · exact inner.extra.kept found plain fits fun unread =>
          body_settled plain closed (free.body found) simulates fits related evaluated unread fun key mine =>
            inner.agree.memo key mine

theorem erasing_lawful (g : Grammar) (plain : st.plain) (closed : st.closed) :
    (g.erasing st).Lawful g.InterceptFree g.IsMemo where
  plain := plain
  closed := closed
  part := InterceptFree.part
  body := InterceptFree.body
  freeLeft free := free
  freeRight := InterceptFree.withoutMemo
  description := g.withoutMemo_description
  rule := by
    intro r _
    by_cases ordinary : g.IsMemo r
    · exact .inl ordinary
    · exact .inr ⟨(rules_withoutMemo_of_not ordinary).symm, fun rule found => mode_of_not ordinary found⟩
  extend backed mine _ unknown := backed.extend mine unknown

theorem erasing_simulates (g : Grammar) (plain : st.plain) (closed : st.closed) (fuel : Nat) {e : Expr}
    (free : g.InterceptFree e) : (g.erasing st).Simulates fuel e := by
  refine Pairing.simulates (g.erasing_lawful plain closed) ?_ fuel e free
  rintro fuel r ⟨rule, found, mode⟩ free simulates
  exact erasing_memo plain closed found mode free (simulates _ (free.body found))

theorem restoring_memo (plain : st.plain) (closed : st.closed) (found : g.rules[r]? = some rule)
    (mode : rule.mode = .memo) (free : g.InterceptFree (.rule r))
    (simulates : (g.erasing st).flip.Simulates fuel rule.body) :
    (g.erasing st).flip.Simulates (fuel + 1) (.rule r) := by
  intro a b s s' t c o fits related ran
  have erased := rules_withoutMemo_of_memo found mode
  rw [Pairing.left, Pairing.flip, erasing, run_plain erased fuel rfl] at ran
  cases known : (t.memo.lookup ⟨.rule r, c.index⟩).bind (·.outcome? c.context.isSome) with
  | some o' =>
      obtain ⟨t', alike, hit⟩ := Runner.memo_hit (g.run 0 rule.body) known
      have settled := related.extra.hit related.right plain closed fits found mode known
      -- the body is settled, so that running it changes nothing
      obtain ⟨fuel', u, again, alike'⟩ := settled s related.left fun _ _ _ known => known
      cases run_unique ran again
      refine ⟨1, t', ?_, related.alike alike' alike⟩
      rw [Pairing.right, Pairing.flip, erasing, run_memo found 0 mode]
      exact hit
  | none =>
      have start : (g.erasing st).flip.Related { a with read := s.shallowestRead } b.untracked s t.missed :=
        ⟨related.left, related.right.congr rfl rfl,
          (related.agree.symm.untracked_left.alike (.missed t) (.refl s)).symm, related.extra⟩
      obtain ⟨fuel', u, again, inner⟩ := simulates fits start ran
      obtain ⟨note, miss⟩ := Runner.memo_miss (g.run fuel' rule.body) known
      let t' := (t.kept u ⟨.rule r, c.index⟩ o).annotate (note o u)
      have result : g.run (fuel' + 1) (.rule r) c t = .ok (o, t') := by
        have evaluated : g.run fuel' rule.body c t.missed = .ok (o, u) := again
        rw [run_memo found fuel' mode, miss, evaluated]
        rfl
      have sound := ((run_advances (fuel' + 1) _ (fun _ => free) fits related.right).result result).sound
      have foreign : ¬g.Grows (Key.parser ⟨.rule r, c.index⟩) := not_grows_of_memo found mode
      refine ⟨fuel' + 1, t', result, inner.left, sound, ?_, ?_⟩
      · exact ((related.agree.symm.kept_left inner.agree.symm foreign).alike (.annotate _ _) (.refl s')).symm
      · have erases := g.erasing_simulates plain closed fuel' (free.body found)
        exact inner.extra.kept found plain fits fun unread =>
          body_settled plain closed (free.body found) erases fits related.flip again unread fun key mine =>
            (inner.agree.memo key mine).symm

theorem restoring_lawful (g : Grammar) (plain : st.plain) (closed : st.closed) :
    (g.erasing st).flip.Lawful g.InterceptFree g.IsMemo where
  plain := plain
  closed := closed
  part := InterceptFree.part
  body := by
    intro r rule free found
    rw [Pairing.left, Pairing.flip, erasing, rules_withoutMemo] at found
    obtain ⟨rule, found', rfl⟩ := Option.map_eq_some_iff.1 found
    have free' : g.InterceptFree rule.body := free.body found'
    exact free'
  freeLeft := InterceptFree.withoutMemo
  freeRight free := free
  description := g.withoutMemo_description.symm
  rule := by
    intro r _
    by_cases ordinary : g.IsMemo r
    · exact .inl ordinary
    · have same := rules_withoutMemo_of_not ordinary
      exact .inr ⟨same, fun rule found => mode_of_not ordinary (same ▸ found)⟩
  extend backed mine unknown _ := backed.extend mine unknown

theorem restoring_simulates (g : Grammar) (plain : st.plain) (closed : st.closed) (fuel : Nat) {e : Expr}
    (free : g.InterceptFree e) : (g.erasing st).flip.Simulates fuel e := by
  refine Pairing.simulates (g.restoring_lawful plain closed) ?_ fuel e free
  rintro fuel r ⟨rule, found, mode⟩ free simulates
  exact restoring_memo plain closed found mode free (simulates _ (free.body found))

end Sides

theorem Related.fresh (g : Grammar) (st : Setting) (options : Options) :
    (g.erasing st).Related {} {} (.fresh options {}) (.fresh options {}) where
  left := .fresh options {}
  right := .fresh options {}
  agree := ⟨rfl, fun _ _ => ⟨none, rfl, rfl⟩, ⟨0, rfl, rfl⟩, fun _ _ => rfl, ⟨none, rfl, rfl⟩, rfl, rfl⟩
  extra _ _ _ _ _ _ known := by cases known

/-- Run in fresh sessions, a grammar without interceptors and the same grammar without memoization return the
same outcomes, after the same passes and the same reads of seeds. -/
theorem memo_transparent (g : Grammar) (e : Expr) (c : Cursor) (options : Options) (free : g.InterceptFree e)
    (boundary : (Text.dropBytes? c.index c.text).isSome) (plain : c.context = none) (o : Outcome)
    (passes reentries : Nat) :
    (∃ fuel s, g.run fuel e c (.fresh options {}) = .ok (o, s) ∧ s.passes = passes ∧ s.reentries = reentries) ↔
      ∃ fuel s, g.withoutMemo.run fuel e c (.fresh options {}) = .ok (o, s) ∧ s.passes = passes ∧
        s.reentries = reentries := by
  let st : Setting := ⟨c.text, true, true⟩
  have fits : c.Fits st := ⟨rfl, boundary, fun _ => plain⟩
  have fresh := Related.fresh g st options
  constructor
  · rintro ⟨fuel, s, ran, rfl, rfl⟩
    obtain ⟨fuel', t, ran', related⟩ := g.erasing_simulates rfl rfl fuel free fits fresh ran
    exact ⟨fuel', t, ran', related.agree.passes.symm, related.agree.reentries.symm⟩
  · rintro ⟨fuel, s, ran, rfl, rfl⟩
    obtain ⟨fuel', t, ran', related⟩ := g.restoring_simulates rfl rfl fuel free fits fresh.flip ran
    exact ⟨fuel', t, ran', related.agree.passes.symm, related.agree.reentries.symm⟩

theorem memo_transparent_self_reference :
    let g : Grammar := { rules := [
      ⟨.leftRecursive, "difference",
        .orElse (.pair (.pair (.rule 1) (.prim (.char '-'))) (.prim .integer)) (.prim .integer)⟩,
      ⟨.memo, "difference", .rule 0⟩] }
    let c : Cursor := .start "10-5-2".toList none
    (∃ o, o.value?.map Value.inspect = some "((((10, '-'), 5), '-'), 2)" ∧ o.index = 6 ∧
      (∃ fuel s, g.run fuel (.rule 0) c (.fresh {} {}) = .ok (o, s) ∧ s.passes = 4 ∧ s.reentries = 4) ∧
      ∃ fuel s, g.withoutMemo.run fuel (.rule 0) c (.fresh {} {}) = .ok (o, s) ∧ s.passes = 4 ∧ s.reentries = 4) ∧
    ∀ o passes reentries,
      (∃ fuel s, g.run fuel (.rule 0) c (.fresh {} {}) = .ok (o, s) ∧ s.passes = passes ∧ s.reentries = reentries) ↔
        ∃ fuel s, g.withoutMemo.run fuel (.rule 0) c (.fresh {} {}) = .ok (o, s) ∧ s.passes = passes ∧
          s.reentries = reentries := by
  intro g c
  have transparent := memo_transparent g (.rule 0) c {} (.of_isSimple rfl rfl) (by decide) rfl
  obtain ⟨⟨o, s⟩, ran, observed⟩ := eq_ok_of_toOption (x := g.run 12 (.rule 0) c (.fresh {} {}))
    (f := fun r => (r.1.value?.map Value.inspect, r.1.index, r.2.passes, r.2.reentries))
    (b := (some "((((10, '-'), 5), '-'), 2)", 6, 4, 4)) (by decide +kernel)
  obtain ⟨value, index, passes, reentries⟩ : _ ∧ _ ∧ _ ∧ _ := by simpa only [Prod.mk.injEq] using observed
  have runs : ∃ fuel s, g.run fuel (.rule 0) c (.fresh {} {}) = .ok (o, s) ∧ s.passes = 4 ∧ s.reentries = 4 :=
    ⟨12, s, ran, passes, reentries⟩
  exact ⟨⟨o, value, index, runs, (transparent o 4 4).1 runs⟩, transparent⟩

end Grammar
end ParseEngine
