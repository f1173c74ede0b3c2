import Mathlib.Data.Finset.Card
import Mathlib.Data.Finset.Range
import ParseEngine.Proofs.Fuel
import ParseEngine.Proofs.Progress

/-!
Termination: if all recursion goes through left-recursive rules, every run returns.

A run at a cursor either moves on, so that less text remains; or puts a left-recursive rule in flight there, so
that fewer rules are left to be put in flight at the index; or goes from an expression to a part of it or to the
body of a rule that is not left-recursive, which ends as these rules do not call each other in a circle.
-/

namespace ParseEngine

inductive Expr.Within : Expr → Expr → Prop
  | self (e : Expr) : Within e e
  | part {q p e : Expr} (inner : Within q p) (part : p.Part e) : Within q e

/-- Rules that are not left-recursive do not call each other in a circle: the only recursion is left recursion. -/
def Grammar.Guarded (g : Grammar) : Prop :=
  WellFounded fun (callee caller : Nat) => ∃ rule, g.rules[caller]? = some rule ∧ rule.mode ≠ .leftRecursive ∧
    Expr.Within (.rule callee) rule.body

/-- What a run goes to without moving on and without growing a seed. -/
inductive Grammar.Under (g : Grammar) : Expr → Expr → Prop
  | part {p e : Expr} (part : p.Part e) : Under g p e
  | body {r : Nat} {rule : Rule} (found : g.rules[r]? = some rule) (mode : rule.mode ≠ .leftRecursive) :
      Under g rule.body (.rule r)

namespace Grammar
variable {g : Grammar} {st : Setting} {c : Cursor} {s t u : Session} {e : Expr} {r : Nat} {rule : Rule}

theorem under_acc_of_rules (e : Expr) (rules : ∀ r, Expr.Within (.rule r) e → Acc g.Under (.rule r)) :
    Acc g.Under e := by
  induction e.part_acc with
  | intro e _ ih =>
      refine ⟨e, fun p under => ?_⟩
      cases under with
      | part part => exact ih p part fun r within => rules r (.part within part)
      | body found mode => exact (rules _ (.self _)).inv (.body found mode)

theorem Guarded.under_acc (guarded : g.Guarded) (e : Expr) : Acc g.Under e := by
  refine under_acc_of_rules e fun r within => ?_
  clear within
  induction r using guarded.induction with
  | _ r ih =>
      refine ⟨_, fun p under => ?_⟩
      cases under with
      | part part => cases part
      | body found mode =>
          exact under_acc_of_rules _ fun r' within => ih r' ⟨_, found, mode, within⟩

def idle (g : Grammar) (growing : List (Key × Growth)) (index : Nat) : Nat :=
  ((Finset.range g.rules.length).filter fun r => (growing.lookup ⟨.rule r, index⟩).isNone).card

theorem idle_lt (found : g.rules[r]? = some rule) {index : Nat} {growing : List (Key × Growth)}
    (idle : growing.lookup ⟨.rule r, index⟩ = none) (growth : Growth) :
    g.idle ((⟨.rule r, index⟩, growth) :: growing) index < g.idle growing index := by
  refine Finset.card_lt_card ⟨fun other member => ?_, fun subset => ?_⟩
  · obtain ⟨inside, free⟩ := Finset.mem_filter.1 member
    refine Finset.mem_filter.2 ⟨inside, ?_⟩
    rw [List.lookup_cons] at free
    split at free
    · cases free
    · exact free
  · have bound : r < g.rules.length := (List.getElem?_eq_some_iff.1 found).1
    have member := subset (Finset.mem_filter.2 ⟨Finset.mem_range.2 bound, by rw [idle]; rfl⟩)
    have free := (Finset.mem_filter.1 member).2
    rw [List.lookup_cons_self] at free
    cases free

def Returns (g : Grammar) (e : Expr) (c : Cursor) (s : Session) : Prop :=
  ∃ fuel r, g.run fuel e c s = .ok r

end Grammar

theorem Routine.Orderly.returns {g : Grammar} {s : Session} {D : Discipline} {α : Type} {P : α → Prop}
    {R : Routine α} (orderly : Orderly D P R) (strict : D.strict) {Inv : Session → Prop}
    (noted : ∀ s f, Inv s → Inv (s.annotate f))
    (parts : ∀ e c s, D.parts e → D.Allows c → Inv s →
      ∃ fuel o t, g.run fuel e c s = .ok (o, t) ∧ o.Follows D.setting c.index ∧ Inv t) (start : Inv s) :
    ∃ fuel r, ∀ more, fuel ≤ more → R (g.run more) s = .ok r := by
  induction orderly generalizing s with
  | done result => exact ⟨0, _, fun _ _ => rfl⟩
  | exhausted lossy => exact absurd strict lossy
  | note f _ ih => exact ih (noted s f start)
  | ask part here _ ih =>
      obtain ⟨first, o, t, ran, follows, later⟩ := parts _ _ _ part here start
      obtain ⟨second, r, again⟩ := ih o follows later
      refine ⟨max first second, r, fun more enough => ?_⟩
      have le := Nat.max_le.1 enough
      simp only [Grammar.run_mono le.1 ran, ok_bind]
      exact again more le.2

namespace Grammar
variable {g : Grammar} {st : Setting} {c : Cursor} {s t : Session} {e : Expr} {r : Nat} {rule : Rule}

theorem growFrom_returns {body : Expr} (idle : s.growing.lookup ⟨.rule r, c.index⟩ = none) (fits : c.Fits st)
    (free : st.closed → g.InterceptFree body)
    (pass : ∀ t : Session, t.Sound g st → s.Above ⟨.rule r, c.index⟩ t → g.Returns body c t) (cap : Nat)
    {left grown : Nat} {growth : Growth} (sound : t.Sound g st) (above : s.Above ⟨.rule r, c.index⟩ t)
    (top : t.growing = (⟨.rule r, c.index⟩, growth) :: s.growing)
    (enough : growth.phase = .seeding ∧ grown = 0 ∧ cap < left ∨
      growth.phase = .growing ∧ grown < cap ∧ cap ≤ left + grown) :
    ∃ fuel r', Runner.growFrom (.rule r) cap (g.run fuel body) left grown c t = .ok r' := by
  induction left generalizing grown t growth with
  | zero => omega
  | succ left ih =>
      have counted : t.counted.Sound g st := sound.congr rfl rfl
      obtain ⟨first, ⟨o, u⟩, passed⟩ := pass t.counted counted (above.continues t.counted_continues)
      have advances := (run_advances first body free fits counted).result passed
      have above := above.continues (t.counted_continues.trans advances.continues)
      have top : u.growing = (⟨.rule r, c.index⟩, growth) :: s.growing := advances.continues.growing.trans top
      have inFlight : u.growing.lookup ⟨.rule r, c.index⟩ = some growth := by rw [top, List.lookup_cons_self]
      rcases Runner.turn_cases inFlight cap grown o with
        ⟨-, turned⟩ | ⟨-, -, note, turned⟩ | ⟨-, short, note, turned⟩
      · exact ⟨first, _, by rw [Runner.growFrom_succ, passed, ok_bind, turned, Runner.Turn.follow]⟩
      · exact ⟨first, _, by rw [Runner.growFrom_succ, passed, ok_bind, turned, Runner.Turn.follow]⟩
      · have noted := (Session.Alike.annotate u note).sound advances.sound
        -- the first pass only leaves a seed; from then on each pass takes one of those that are left
        have next : growth.next grown < cap ∧ cap ≤ left + growth.next grown := by
          refine ⟨short, ?_⟩
          rcases enough with ⟨seeding, first, more⟩ | ⟨growing, -, more⟩
          · simp only [Growth.next, seeding, if_true]
            omega
          · simp only [Growth.next, growing, reduceCtorEq, if_false]
            omega
        obtain ⟨second, r', again⟩ := ih (noted.grow top idle advances.follows)
          ((above.continues (.annotate u note)).grow idle o) (Session.grow_growing top idle) (.inr ⟨rfl, next⟩)
        refine ⟨max first second, r', ?_⟩
        rw [Runner.growFrom_succ, run_mono (Nat.le_max_left first second) passed, ok_bind, turned,
          Runner.Turn.follow]
        exact Runner.growFrom_below _ cap (g.run_below (Nat.le_max_right first second) body) left _ c _ _ again

theorem leftRecursive_returns (found : g.rules[r]? = some rule) (mode : rule.mode = .leftRecursive)
    (fits : c.Fits st) (free : st.closed → g.InterceptFree rule.body) (sound : s.Sound g st)
    (pass : s.growing.lookup ⟨.rule r, c.index⟩ = none → ∀ t : Session, t.Sound g st →
      s.Above ⟨.rule r, c.index⟩ t → g.Returns rule.body c t) : g.Returns (.rule r) c s := by
  have step (fuel : Nat) {x : Outcome × Session}
      (result : Runner.leftRecursive (.rule r) rule.title (g.run fuel rule.body) c s = .ok x) :
      g.Returns (.rule r) c s :=
    ⟨fuel + 1, x, by rw [run_leftRecursive found fuel mode]; exact result⟩
  cases inFlight : s.growing.lookup ⟨.rule r, c.index⟩ with
  | some growth => exact step 0 (Runner.leftRecursive_seed rule.title _ inFlight)
  | none =>
      cases known : (s.memo.lookup ⟨.rule r, c.index⟩).bind (·.outcome? c.context.isSome) with
      | some o =>
          obtain ⟨t, -, hit⟩ := Runner.leftRecursive_hit rule.title (g.run 0 rule.body) inFlight known
          exact step 0 hit
      | none =>
          obtain ⟨before, rest, remains, -, -⟩ := fits.remaining
          obtain ⟨start, alike, grows⟩ := Runner.leftRecursive_grow rule.title remains inFlight known
          have begun := (alike.sound (sound.congr rfl rfl)).begin ⟨r, rule, rfl, found, mode⟩
            (fun plain closed => by rw [alike.memo]; exact Runner.miss_unknown sound fits plain closed known)
            (Runner.firstSeed_follows fits rule.title rest)
          obtain ⟨fuel, x, grown⟩ := growFrom_returns inFlight fits free (pass inFlight)
            (Runner.growthCap s.options rest) begun (.begin alike _ _) (by rw [Session.begin, alike.growing]; rfl)
            (.inl ⟨rfl, rfl, Nat.lt_succ_self _⟩)
          exact step fuel (by rw [grows, grown]; rfl)

theorem memo_returns (found : g.rules[r]? = some rule) (mode : rule.mode = .memo)
    (body : g.Returns rule.body c s.missed) : g.Returns (.rule r) c s := by
  obtain ⟨fuel, ⟨o, t⟩, ran⟩ := body
  cases known : (s.memo.lookup ⟨.rule r, c.index⟩).bind (·.outcome? c.context.isSome) with
  | some o =>
      obtain ⟨t, -, hit⟩ := Runner.memo_hit (g.run fuel rule.body) known
      exact ⟨fuel + 1, _, by rw [run_memo found fuel mode]; exact hit⟩
  | none =>
      obtain ⟨note, miss⟩ := Runner.memo_miss (g.run fuel rule.body) known
      exact ⟨fuel + 1, _, by rw [run_memo found fuel mode, miss, ran]; rfl⟩

theorem composite_returns (composite : e.isComposite) (bounded : e.isBounded) (free : st.closed → g.InterceptFree e)
    (fits : c.Fits st) (sound : s.Sound g st)
    (parts : ∀ p d t, p.Part e → d.Fits st → c.index ≤ d.index → t.Sound g st → t.growing = s.growing →
      g.Returns p d t) : g.Returns e c s := by
  let D : Discipline := ⟨st, c.index, fun p => p.Part e, True⟩
  let loops := max (Text.byteLength st.text) e.scriptSize + 1
  have enough : e.isBounded ∧ Text.byteLength st.text < loops ∧ e.scriptSize < loops :=
    ⟨bounded, Nat.lt_succ_of_le (Nat.le_max_left _ _), Nat.lt_succ_of_le (Nat.le_max_right _ _)⟩
  have orderly : Routine.Orderly D D.Gives (e.routine (Expr.description g.rules) loops c) :=
    Expr.routine_orderly composite (fun _ part => part) _ (fun _ => enough) ⟨fits, Nat.le_refl _⟩
  have returning (p : Expr) (d : Cursor) (t : Session) (part : p.Part e) (here : D.Allows d)
      (inside : t.Sound g st ∧ t.growing = s.growing) : ∃ fuel o u, g.run fuel p d t = .ok (o, u) ∧
        o.Follows st d.index ∧ u.Sound g st ∧ u.growing = s.growing := by
    obtain ⟨fuel, ⟨o, u⟩, ran⟩ := parts p d t part here.fits here.le inside.1 inside.2
    have advances := (run_advances fuel p (fun closed => (free closed).part part) here.fits inside.1).result ran
    exact ⟨fuel, o, u, ran, advances.follows, advances.sound, advances.continues.growing.trans inside.2⟩
  obtain ⟨fuel, x, ran⟩ := orderly.returns trivial
    (fun t f inside => ⟨(Session.Alike.annotate t f).sound inside.1, inside.2⟩) returning ⟨sound, rfl⟩
  refine ⟨max loops fuel + 1, x, ?_⟩
  rw [g.run_composite composite]
  exact e.routine_below _ (fun e c s => .refl _) (Nat.le_max_left loops fuel) c s _
    (ran _ (Nat.le_max_right loops fuel))

-- the induction is on the remaining text, then on the rules not yet in flight here, then on what stands under
-- the expression
theorem returns (guarded : g.Guarded) (remaining spare : Nat) (e : Expr)
    (bounded : ∀ e', g.Uses e e' → e'.isBounded) (fits : c.Fits st) (sound : s.Sound g st)
    (left : Text.byteLength st.text - c.index = remaining) (idle : g.idle s.growing c.index = spare) :
    g.Returns e c s := by
  induction remaining using Nat.strong_induction_on generalizing spare e c s with
  | _ remaining onward =>
  induction spare using Nat.strong_induction_on generalizing e c s with
  | _ spare deeper =>
  induction guarded.under_acc e generalizing c s with
  | intro e _ inward =>
      have free (_ : st.closed) : g.InterceptFree e :=
        fun interceptor p uses => absurd (bounded _ uses) Bool.false_ne_true
      -- runs of what stands under the expression, at the same index or further on
      have under (p : Expr) (d : Cursor) (t : Session) (below : g.Under p e) (fits' : d.Fits st)
          (le : c.index ≤ d.index) (sound' : t.Sound g st) (same : t.growing = s.growing) : g.Returns p d t := by
        have bounded' (e' : Expr) (uses : g.Uses p e') : e'.isBounded := by
          cases below with
          | part part => exact bounded e' (.part part uses)
          | body found mode => exact bounded e' (.body found uses)
        have bound := fits'.index_le
        rcases Nat.eq_or_lt_of_le le with here | further
        · exact inward p below bounded' fits' sound' (here ▸ left) (by rw [same, ← here, idle])
        · exact onward _ (by omega) _ p bounded' fits' sound' rfl rfl
      by_cases composite : e.isComposite = true
      · refine composite_returns composite (bounded e (.self e)) free fits sound ?_
        exact fun p d t part => under p d t (.part part)
      · cases e with
        | rule r =>
            cases found : g.rules[r]? with
            | none =>
                obtain ⟨o, failed, -⟩ := Prim.orphan.run_follows fits
                exact ⟨1, (o, s), (run_missing_eq_ok 0 found).2 ⟨failed, rfl⟩⟩
            | some rule =>
                cases mode : rule.mode with
                | plain =>
                    obtain ⟨fuel, x, ran⟩ :=
                      under rule.body c s (.body found (by simp [mode])) fits (Nat.le_refl _) sound rfl
                    exact ⟨fuel + 1, x, by rw [run_plain found fuel mode]; exact ran⟩
                | memo =>
                    exact memo_returns found mode (under rule.body c s.missed (.body found (by simp [mode])) fits
                      (Nat.le_refl _) (sound.congr rfl rfl) rfl)
                | leftRecursive =>
                    refine leftRecursive_returns found mode fits (fun closed => (free closed).body found) sound ?_
                    intro unused t sound' above
                    obtain ⟨growth, top⟩ := above.growing
                    have fewer := idle_lt found unused growth
                    rw [← top, idle] at fewer
                    have bounded' (e' : Expr) (uses : g.Uses rule.body e') := bounded e' (.body found uses)
                    exact deeper _ fewer rule.body bounded' fits sound' left rfl
        | intercept interceptor p => exact absurd (bounded _ (.self _)) Bool.false_ne_true
        | _ => exact absurd rfl composite

end Grammar
end ParseEngine
