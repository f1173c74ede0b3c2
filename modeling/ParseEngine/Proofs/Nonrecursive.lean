import ParseEngine.Proofs.LeftFold

/-!
Growing a seed changes nothing for a rule that does not refer to itself.

The rule runs its body with itself in flight, which the body does not notice: it never asks for the seed, and all that
it asks for lies above the rule in the same order. The outcome of the first pass is therefore settled, the second pass
gives it again, and as that is not further on, it is the outcome of the rule.
-/

namespace ParseEngine
namespace Grammar

variable {g : Grammar} {st : Setting} {r : Nat} {p : Expr} {c : Cursor} {s v : Session} {base : Session}
  {growth : Growth} {o : Outcome}

theorem beneath_flip (g : Grammar) (st : Setting) (r : Nat) : (g.beneath st r).flip = g.beneath st r := by
  simp only [Pairing.flip, beneath, and_comm]

theorem InFlight.run_beside (inFlight : g.InFlight st r c base s v growth) (memoFree : g.MemoFree) (plain : st.plain)
    (closed : st.closed) (foreign : g.Foreign r p) {d : Cursor} (fits : d.Fits st) {w : Session}
    (ran : g.Evaluates p d v o w) : ∃ s', g.Evaluates p d s o s' := by
  obtain ⟨fuel, ran⟩ := ran
  obtain ⟨b, -, related⟩ := inFlight.related
  have flipped := related.flip
  rw [beneath_flip] at flipped
  obtain ⟨fuel', s', ran', -⟩ := beneath_simulates memoFree plain closed foreign fuel fits flipped ran
  exact ⟨s', fuel', ran'⟩

section Growth
variable {options : Options} {start : Session} {title : String} {rest : List Char} (memoFree : g.MemoFree)
  (plain : st.plain) (closed : st.closed) (foreign : g.Foreign r p) (fits : c.Fits st)
  (found : g.rules[r]? = some ⟨.leftRecursive, title, p⟩) (alike : start.Alike (Session.fresh options {}).untracked)
include memoFree plain closed foreign fits found alike

theorem growth_repeats {s' : Session} (ran : g.Evaluates p c (.fresh options {}) o s') (rest : List Char) (cap : Nat) :
    ∃ fuel u, Runner.growFrom (.rule r) cap (g.run fuel p) (cap + 1) 0 c
      (start.begin ⟨.rule r, c.index⟩ (Runner.firstSeed title c rest)) = .ok (o, u) := by
  have begun : g.InFlight st r c (.fresh options {}) (.fresh options {})
      (start.begin ⟨.rule r, c.index⟩ (Runner.firstSeed title c rest)) ⟨Runner.firstSeed title c rest, .seeding, 0⟩ :=
    .start found rfl fits alike
  obtain ⟨w, passed, inFlight, -⟩ := begun.counted.run memoFree plain closed foreign fits ran
  have settled := begun.counted.settled memoFree plain closed foreign fits rfl ran inFlight
  cases o with
  | failure message d found =>
      obtain ⟨fuel, passed⟩ := passed
      refine ⟨fuel, w, ?_⟩
      rw [Runner.growFrom_succ, passed, ok_bind, Runner.turn_stops inFlight.lookup rfl]
      rfl
  | success value d =>
      have better : Runner.improves (.success value d) (Runner.firstSeed title c rest) = true := rfl
      cases cap with
      | zero => exact growth_capped passed inFlight.lookup better (Nat.le_refl 0) 0
      | succ cap =>
          refine growth_goesOn passed inFlight.lookup better (Nat.succ_pos cap) fun note => ?_
          obtain ⟨fuel, ran⟩ := ran
          have follows := ((run_advances fuel p (fun _ => foreign.1) fits (.fresh options {})).result ran).follows
          have grown := inFlight.grow note follows
          obtain ⟨fuel', u, again, unchanged⟩ := settled _ grown.counted.sound fun _ _ _ known => known
          have top : u.growing.lookup ⟨.rule r, c.index⟩ = some ⟨.success value d, .growing, 0⟩ := by
            rw [unchanged.growing]
            exact grown.lookup
          -- the second pass is the first one again, so it is not further on
          have worse : Runner.improves (.success value d) (.success value d) = false := by simp [Runner.improves]
          exact growth_ends ⟨fuel', again⟩ top rfl worse (cap + 1) cap 0

theorem evaluates_of_growth {fuel cap left : Nat} {u : Session}
    (ran : Runner.growFrom (.rule r) cap (g.run fuel p) left 0 c
      (start.begin ⟨.rule r, c.index⟩ (Runner.firstSeed title c rest)) = .ok (o, u)) :
    ∃ o' s', g.Evaluates p c (.fresh options {}) o' s' := by
  have begun : g.InFlight st r c (.fresh options {}) (.fresh options {})
      (start.begin ⟨.rule r, c.index⟩ (Runner.firstSeed title c rest)) ⟨Runner.firstSeed title c rest, .seeding, 0⟩ :=
    .start found rfl fits alike
  cases left with
  | zero => cases ran
  | succ left =>
      rw [Runner.growFrom_succ] at ran
      obtain ⟨⟨pass, w⟩, passed, -⟩ := bind_eq_ok.1 ran
      obtain ⟨s', ran'⟩ := begun.counted.run_beside memoFree plain closed foreign fits ⟨fuel, passed⟩
      exact ⟨pass, s', ran'⟩

end Growth

theorem evaluates_rule_iff {options : Options} {title : String} (memoFree : g.MemoFree) (plain : st.plain)
    (closed : st.closed) (foreign : g.Foreign r p) (fits : c.Fits st)
    (found : g.rules[r]? = some ⟨.leftRecursive, title, p⟩) :
    (∃ t, g.Evaluates (.rule r) c (.fresh options {}) o t) ↔ ∃ t, g.Evaluates p c (.fresh options {}) o t := by
  obtain ⟨before, rest, remains, -, -⟩ := fits.remaining
  let fresh := Session.fresh options {}
  obtain ⟨start, alike, grows⟩ : ∃ start : Session, start.Alike fresh.untracked ∧
      ∀ body, Runner.leftRecursive (.rule r) title body c fresh = _ :=
    Runner.leftRecursive_grow title remains rfl rfl
  have grown {o : Outcome} {s' : Session} (ran : g.Evaluates p c fresh o s') :
      ∃ t, g.Evaluates (.rule r) c fresh o t := by
    obtain ⟨fuel, u, ran'⟩ := growth_repeats memoFree plain closed foreign fits found alike ran rest
      (Runner.growthCap options rest)
    refine ⟨fresh.kept (u.finish ⟨.rule r, c.index⟩) ⟨.rule r, c.index⟩ o, fuel + 1, ?_⟩
    rw [run_leftRecursive found fuel rfl, grows]
    exact bind_eq_ok.2 ⟨(o, u), ran', rfl⟩
  constructor
  · rintro ⟨t, fuel, ran⟩
    cases fuel with
    | zero => cases ran
    | succ fuel =>
        have ran' := ran
        rw [run_leftRecursive found fuel rfl, grows] at ran'
        obtain ⟨⟨last, u⟩, ran', -⟩ := bind_eq_ok.1 ran'
        obtain ⟨o', s', passed⟩ := evaluates_of_growth memoFree plain closed foreign fits found alike ran'
        obtain ⟨t', fuel', again⟩ := grown passed
        cases run_unique ran again
        exact ⟨s', passed⟩
  · rintro ⟨s', ran⟩
    exact grown ran

/-- A left-recursive rule whose body does not refer to it, and is free of interceptors, gives in a fresh session what
its body gives there. The one returns if and only if the other does. -/
theorem leftRecursion_transparent (g : Grammar) (r : Nat) (title : String) (p : Expr) (c : Cursor) (options : Options)
    (found : g.rules[r]? = some ⟨.leftRecursive, title, p⟩) (free : g.InterceptFree p) (apart : ¬g.Uses p (.rule r))
    (boundary : (Text.dropBytes? c.index c.text).isSome) (plain : c.context = none) (o : Outcome) :
    (∃ fuel s, g.run fuel (.rule r) c (.fresh options {}) = .ok (o, s)) ↔
      ∃ fuel s, g.run fuel p c (.fresh options {}) = .ok (o, s) := by
  let st : Setting := ⟨c.text, true, true⟩
  have fits : c.Fits st := ⟨rfl, boundary, fun _ => plain⟩
  have fresh := Related.fresh g st options
  have freeRule : g.InterceptFree (.rule r) := by
    intro interceptor q uses
    cases uses with
    | part part _ => cases part
    | body found' uses =>
        cases found.symm.trans found'
        exact free interceptor q uses
  -- both run without memoization as they do with it
  have erased {e : Expr} (free : g.InterceptFree e) : (∃ fuel s, g.run fuel e c (.fresh options {}) = .ok (o, s)) ↔
      ∃ t, g.withoutMemo.Evaluates e c (.fresh options {}) o t := by
    constructor
    · rintro ⟨fuel, s, ran⟩
      obtain ⟨fuel', t, ran', -⟩ := g.erasing_simulates rfl rfl fuel free fits fresh ran
      exact ⟨t, fuel', ran'⟩
    · rintro ⟨t, fuel, ran⟩
      obtain ⟨fuel', s, ran', -⟩ := g.restoring_simulates rfl rfl fuel free fits fresh.flip ran
      exact ⟨fuel', s, ran'⟩
  have foreign : g.withoutMemo.Foreign r p := ⟨free.withoutMemo, fun uses => apart uses.of_withoutMemo⟩
  rw [erased freeRule, erased free]
  exact evaluates_rule_iff g.withoutMemo_memoFree rfl rfl foreign fits (rules_withoutMemo_of_ne found (by simp))

theorem leftRecursion_transparent_looking_ahead :
    let minuses : Expr := .orElse (.pair (.rule 2) (.prim (.char '-'))) (.prim .integer)
    let p : Expr := .pair (.adapt .lookahead (.rule 2)) (.rule 1)
    let g : Grammar := { rules := [⟨.leftRecursive, "minuses twice", p⟩, ⟨.leftRecursive, "minuses", minuses⟩,
      ⟨.memo, "minuses", .rule 1⟩] }
    let c : Cursor := .start "7--".toList none
    ∃ v d, d.index = 3 ∧ ∃ fuel s, g.run fuel (.rule 0) c (.fresh {} {}) = .ok (.success v d, s) := by
  intro minuses p g c
  let S (e : Expr) : Prop := e = p ∨ e = .adapt .lookahead (.rule 2) ∨ e = .rule 1 ∨ e = .rule 2 ∨ e = minuses ∨
    e = .pair (.rule 2) (.prim (.char '-')) ∨ e = .prim (.char '-') ∨ e = .prim .integer
  have parts (q e : Expr) (part : q.Part e) (holds : S e) : S q := by
    dsimp only [S, p, minuses] at holds ⊢
    rcases holds with rfl | rfl | rfl | rfl | rfl | rfl | rfl | rfl <;> cases part <;> simp
  have bodies (r : Nat) (rule : Rule) (found : g.rules[r]? = some rule) : S rule.body := by
    rcases r with _ | _ | _ | r <;> cases found <;> simp [S]
  have apart : ¬g.Uses p (.rule 0) := fun uses => by
    have holds := uses.closed parts bodies (.inl rfl)
    simp [S, p, minuses] at holds
  have ends : (g.run 9 p c (.fresh {} {})).toOption.map (fun r => (r.1.isSuccess, r.1.index)) = some (true, 3) := by
    decide +kernel
  cases ran : g.run 9 p c (.fresh {} {}) with
  | error halt => simp [ran, Except.toOption] at ends
  | ok result =>
      obtain ⟨o, s⟩ := result
      simp only [ran, Except.toOption, Option.map_some, Option.some.injEq, Prod.mk.injEq] at ends
      have same := leftRecursion_transparent g 0 "minuses twice" p c {} rfl (.of_isSimple rfl rfl) apart (by decide) rfl
        o
      cases o with
      | failure message d found => cases ends.1
      | success v d => exact ⟨v, d, ends.2, same.2 ⟨9, s, ran⟩⟩

end Grammar
end ParseEngine
