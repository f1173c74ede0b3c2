import ParseEngine.Proofs.Termination

namespace ParseEngine
namespace Runner

inductive Passes (id : ParserId) (body : Runner) (c : Cursor) : Session → List Outcome → Session → Prop
  | last {s t : Session} {pass : Outcome} (ran : body c s.counted = .ok (pass, t)) : Passes id body c s [pass] t
  | more {s t u : Session} {pass : Outcome} {later : List Outcome} (ran : body c s.counted = .ok (pass, t))
      (rest : Passes id body c ((t.log (.seedGrown id c.index pass.index)).grow ⟨id, c.index⟩ pass) later u) :
      Passes id body c s (pass :: later) u

structure Ascent (accepted : List Outcome) (o : Outcome) : Prop where
  successes : ∀ pass ∈ accepted, pass.isSuccess
  climbs : accepted.Pairwise (·.index < ·.index)
  last : accepted.getLast? = some o

variable {g : Grammar} {st : Setting} {id : ParserId} {body : Runner} {c : Cursor} {s t u : Session}
  {o pass seed : Outcome} {accepted : List Outcome}

theorem improves_success (better : improves pass seed = true) : pass.isSuccess := by
  cases pass with
  | success v d => rfl
  | failure message d found => cases seed <;> cases better

theorem improves_further (better : improves pass seed = true) (success : seed.isSuccess) :
    seed.index < pass.index := by
  cases seed with
  | failure message d found => cases success
  | success v d =>
      cases pass with
      | failure message e found => cases better
      | success w e => exact of_decide_eq_true better

theorem le_of_not_improves (worse : improves pass seed = false) (success : seed.isSuccess) (passed : pass.isSuccess) :
    pass.index ≤ seed.index := by
  cases pass with
  | failure message e found => cases passed
  | success w e =>
      cases seed with
      | failure message d found => cases success
      | success v d => exact Nat.le_of_not_lt (of_decide_eq_false worse)

namespace Ascent

theorem single (success : pass.isSuccess) : Ascent [pass] pass :=
  ⟨fun _ member => List.mem_singleton.1 member ▸ success, List.pairwise_singleton _ _, rfl⟩

theorem cons (ascent : Ascent (pass :: accepted) o) (success : seed.isSuccess) (further : seed.index < pass.index) :
    Ascent (seed :: pass :: accepted) o := by
  obtain ⟨successes, climbs, last⟩ := ascent
  refine ⟨List.forall_mem_cons.2 ⟨success, successes⟩, List.pairwise_cons.2 ⟨?_, climbs⟩, ?_⟩
  · intro next member
    rcases List.mem_cons.1 member with rfl | member
    · exact further
    · exact Nat.lt_trans further ((List.pairwise_cons.1 climbs).1 next member)
  · rw [List.getLast?_cons_cons]
    exact last

theorem mem (ascent : Ascent accepted o) : o ∈ accepted :=
  List.mem_of_getLast? ascent.last

theorem le (ascent : Ascent accepted o) (member : pass ∈ accepted) : pass.index ≤ o.index := by
  obtain ⟨before, rfl⟩ := List.getLast?_eq_some_iff.1 ascent.last
  rcases List.mem_append.1 member with earlier | same
  · have apart := (List.pairwise_append.1 ascent.climbs).2.2 pass earlier o (List.mem_singleton.2 rfl)
    exact Nat.le_of_lt apart
  · rw [List.mem_singleton.1 same]

end Ascent

def halted (id : ParserId) (c : Cursor) (cap : Nat) (o : Outcome) (u : Session) : Session :=
  (u.log (.seedGrown id c.index o.index)).log (.growthStopped id c.index cap)

def Stops (id : ParserId) (c : Cursor) (cap grown : Nat) (later passes : List Outcome) (o : Outcome)
    (u v : Session) : Prop :=
  (∃ rejected, passes = later ++ [rejected] ∧ improves rejected o = false ∧ grown + later.length < cap ∧ v = u) ∨
    (passes = later ∧ grown + later.length = cap ∧ v = halted id c cap o u)

namespace Stops
variable {cap grown : Nat} {first : Outcome} {later passes : List Outcome} {v : Session}
  (stops : Stops id c cap grown later passes o u v)
include stops

theorem length : passes.length ≤ later.length + 1 ∧ later.length ≤ passes.length ∧ grown + passes.length ≤ cap := by
  rcases stops with ⟨rejected, rfl, -, short, -⟩ | ⟨rfl, full, -⟩
  · rw [List.length_append, List.length_singleton]
    omega
  · omega

theorem le (ascent : Ascent (first :: later) o) (member : pass ∈ first :: passes) (success : pass.isSuccess) :
    pass.index ≤ o.index := by
  rcases stops with ⟨rejected, rfl, worse, -, -⟩ | ⟨rfl, -, -⟩
  · rw [← List.cons_append, List.mem_append, List.mem_singleton] at member
    rcases member with accepted | rfl
    · exact ascent.le accepted
    · exact le_of_not_improves worse (ascent.successes o ascent.mem) success
  · exact ascent.le member

end Stops

section Passing
variable {cap left grown depth : Nat} {growth : Growth} {v : Session}
  (progress : ∀ s : Session, s.Sound g st → Safely (g.Advances st c.index s) (body c s))
include progress

theorem growFrom_pass {base : List (Key × Growth)} (sound : t.Sound g st)
    (top : t.growing = (⟨id, c.index⟩, growth) :: base)
    (ran : growFrom id cap body (left + 1) grown c t = .ok (o, v)) :
    ∃ pass w, body c t.counted = .ok (pass, w) ∧ pass.Follows st c.index ∧
      w.Sound g st ∧ w.growing = (⟨id, c.index⟩, growth) :: base ∧ w.growing.lookup ⟨id, c.index⟩ = some growth ∧
      (turn id cap grown c pass w).follow (fun grown => growFrom id cap body left grown c) = .ok (o, v) := by
  rw [growFrom_succ] at ran
  obtain ⟨⟨pass, w⟩, passed, turned⟩ := bind_eq_ok.1 ran
  have advances := (progress t.counted (sound.congr rfl rfl)).result passed
  have top' : w.growing = (⟨id, c.index⟩, growth) :: base := advances.continues.growing.trans top
  exact ⟨pass, w, passed, advances.follows, advances.sound, top', by rw [top', List.lookup_cons_self], turned⟩

variable (idle : s.growing.lookup ⟨id, c.index⟩ = none) (sound : t.Sound g st)
include idle sound

theorem growing_climbs (top : t.growing = (⟨id, c.index⟩, ⟨seed, .growing, depth⟩) :: s.growing)
    (success : seed.isSuccess) (short : grown < cap) (ran : growFrom id cap body left grown c t = .ok (o, v)) :
    ∃ passes u later, Passes id body c t passes u ∧ Ascent (seed :: later) o ∧
      seed.index + later.length ≤ o.index ∧ Stops id c cap grown later passes o u v := by
  induction left generalizing grown t seed with
  | zero => cases ran
  | succ left ih =>
      obtain ⟨pass, w, passed, follows, sound', top', inFlight, ran⟩ := growFrom_pass progress sound top ran
      simp only [turn, inFlight, Growth.next, reduceCtorEq, if_false] at ran
      cases better : improves pass seed with
      | false =>
          simp only [better, Bool.not_false, if_true, Turn.follow] at ran
          cases ran
          exact ⟨[pass], v, [], .last passed, .single success, Nat.le_refl _, .inl ⟨pass, rfl, better, short, rfl⟩⟩
      | true =>
          simp only [better, Bool.not_true, Bool.false_eq_true, if_false] at ran
          have further := improves_further better success
          by_cases reached : cap ≤ grown + 1
          · simp only [if_pos reached, Turn.follow] at ran
            cases ran
            have full : grown + 1 = cap := Nat.le_antisymm short reached
            have ascent : Ascent [seed, o] o := (Ascent.single (improves_success better)).cons success further
            exact ⟨[o], w, [o], .last passed, ascent, further, .inr ⟨rfl, full, by rw [halted, full]⟩⟩
          · simp only [if_neg reached, Turn.follow] at ran
            have noted := (Session.Alike.annotate w (·.logged (.seedGrown id c.index pass.index))).sound sound'
            obtain ⟨passes, u, later, rest, ascent, climbed, stops⟩ := ih (noted.grow top' idle follows)
              (Session.grow_growing top' idle) (improves_success better) (Nat.lt_of_not_le reached) ran
            refine ⟨pass :: passes, u, pass :: later, .more passed rest, ascent.cons success further, ?_, ?_⟩
            · rw [List.length_cons]
              omega
            · have count : grown + (pass :: later).length = grown + 1 + later.length := by
                rw [List.length_cons]
                omega
              rw [Stops, count]
              rcases stops with ⟨rejected, rfl, worse, few, same⟩ | ⟨rfl, full, same⟩
              · exact .inl ⟨rejected, rfl, worse, few, same⟩
              · exact .inr ⟨rfl, full, same⟩

theorem seeding_climbs {message found : String} {d : Cursor}
    (top : t.growing = (⟨id, c.index⟩, ⟨.failure message d found, .seeding, depth⟩) :: s.growing)
    (ran : growFrom id cap body left 0 c t = .ok (o, v)) :
    ∃ passes u, Passes id body c t passes u ∧ (o.isSuccess = false ∧ passes = [o] ∧ v = u ∨
      ∃ first later rest, passes = first :: rest ∧ Ascent (first :: later) o ∧ c.index + later.length ≤ o.index ∧
        Stops id c cap 0 later rest o u v) := by
  cases left with
  | zero => cases ran
  | succ left =>
      obtain ⟨pass, w, passed, follows, sound', top', inFlight, ran⟩ := growFrom_pass progress sound top ran
      simp only [turn, inFlight, Growth.next, if_true] at ran
      cases pass with
      | failure message' e found' =>
          cases ran
          exact ⟨[_], v, .last passed, .inl ⟨rfl, rfl, rfl⟩⟩
      | success x e =>
          simp only [improves, Bool.not_true, Bool.false_eq_true, if_false] at ran
          by_cases reached : cap ≤ 0
          · simp only [if_pos reached, Turn.follow] at ran
            cases ran
            have full : 0 = cap := (Nat.le_zero.1 reached).symm
            exact ⟨[_], w, .last passed, .inr ⟨_, [], [], rfl, .single rfl, follows.le,
              .inr ⟨rfl, full, by rw [halted, full]⟩⟩⟩
          · simp only [if_neg reached, Turn.follow] at ran
            have noted := (Session.Alike.annotate w (·.logged (.seedGrown id c.index e.index))).sound sound'
            obtain ⟨rest, u, later, more, ascent, climbed, stops⟩ := growing_climbs progress idle
              (noted.grow top' idle follows) (Session.grow_growing top' idle) rfl (Nat.lt_of_not_le reached) ran
            have start : c.index + later.length ≤ o.index :=
              Nat.le_trans (Nat.add_le_add_right follows.le _) climbed
            exact ⟨_, u, .more passed more, .inr ⟨_, later, rest, rfl, ascent, start, stops⟩⟩

end Passing

end Runner

namespace Grammar
open Runner

/-- If the body of a left-recursive rule returns, the rule does. Its passes are one that fails, or accepted ones that
climb to the outcome of the rule and then one that is rejected, unless the options bound them. -/
theorem growth_climbs (g : Grammar) (r : Nat) (rule : Rule) (c : Cursor) (s : Session) (rest : List Char)
    (found : g.rules[r]? = some rule) (mode : rule.mode = .leftRecursive) (remains : c.remaining = .ok rest)
    (sound : s.Sound g ⟨c.text, false, false⟩) (idle : s.growing.lookup ⟨.rule r, c.index⟩ = none)
    (unknown : s.memo.lookup ⟨.rule r, c.index⟩ = none) :
    let key : Key := ⟨.rule r, c.index⟩
    let bound := s.options.growthBound
    ((∀ t : Session, t.Sound g ⟨c.text, false, false⟩ → s.Above key t → g.Returns rule.body c t) →
      g.Returns (.rule r) c s) ∧
    ∀ fuel o t, g.run (fuel + 1) (.rule r) c s = .ok (o, t) →
      ∃ (start : Session) (passes : List Outcome) (u v : Session), start.Alike s.untracked ∧
      Passes (.rule r) (g.run fuel rule.body) c (start.begin key (firstSeed rule.title c rest)) passes u ∧
      t = s.kept (v.finish key) key o ∧
      passes.length ≤ Text.byteLength rest + 2 ∧ (∀ n, bound = some n → passes.length ≤ n + 1) ∧
      (o.isSuccess = false ∧ passes = [o] ∧ v = u ∨
        ∃ accepted, Ascent accepted o ∧ (∀ n, bound = some n → accepted.length ≤ n + 1) ∧
          (∀ pass ∈ passes, pass.isSuccess → pass.index ≤ o.index) ∧
          ((∃ rejected, passes = accepted ++ [rejected] ∧ v = u) ∨
            ∃ n, bound = some n ∧ passes = accepted ∧ accepted.length = n + 1 ∧ v = halted (.rule r) c n o u)) := by
  intro key bound
  have fits := Cursor.fits_of_remaining remains
  have unfree (closed : (⟨c.text, false, false⟩ : Setting).closed) : g.InterceptFree rule.body := nomatch closed
  refine ⟨fun returning => leftRecursive_returns found mode fits unfree sound fun _ => returning,
    fun fuel o t ran => ?_⟩
  have miss : (s.memo.lookup key).bind (·.outcome? c.context.isSome) = none := by rw [unknown]; rfl
  obtain ⟨start, alike, grows⟩ := leftRecursive_grow rule.title remains idle miss
  rw [run_leftRecursive found fuel mode, grows] at ran
  obtain ⟨⟨o, v⟩, grown, same⟩ := bind_eq_ok.1 ran
  cases same
  have progress (s : Session) (sound : s.Sound g ⟨c.text, false, false⟩) :=
    run_advances fuel rule.body unfree fits sound
  have sound' : start.Sound g ⟨c.text, false, false⟩ := alike.sound (sound.congr rfl rfl)
  have begun : (start.begin key (firstSeed rule.title c rest)).Sound g ⟨c.text, false, false⟩ :=
    sound'.begin ⟨r, rule, rfl, found, mode⟩ (fun plain => nomatch plain) (firstSeed_follows fits rule.title rest)
  have top : (start.begin key (firstSeed rule.title c rest)).growing =
      (key, ⟨firstSeed rule.title c rest, .seeding, start.growing.length⟩) :: s.growing := by
    rw [Session.begin, alike.growing]
    rfl
  -- the outcome lies in the text, so there are no more accepted passes than bytes, and one
  have inside : o.index ≤ c.index + Text.byteLength rest := by
    obtain ⟨follows, -, -⟩ := (growFrom_safely idle progress _ _ begun (.begin alike _ _)).result grown
    rw [Cursor.index_add_remaining remains]
    exact Cursor.Fits.index_le follows.fits
  obtain ⟨passes, u, made, ends⟩ := seeding_climbs progress idle begun top grown
  refine ⟨start, passes, u, v, alike, made, rfl, ?_⟩
  rcases ends with ⟨failed, rfl, rfl⟩ | ⟨first, later, others, rfl, ascent, climbed, stops⟩
  · exact ⟨by simp, fun n _ => by simp, .inl ⟨failed, rfl, rfl⟩⟩
  have few : later.length ≤ Text.byteLength rest := by omega
  obtain ⟨most, least, within⟩ := stops.length
  have cap (n : Nat) (given : bound = some n) : growthCap s.options rest = n := by
    rw [growthCap, show s.options.growthBound = some n from given, Option.getD_some]
  have bounded (n : Nat) (given : bound = some n) : others.length ≤ n := by
    rw [cap n given] at within
    omega
  simp only [List.length_cons]
  refine ⟨by omega, fun n given => Nat.succ_le_succ (bounded n given), .inr ⟨first :: later, ascent, fun n given => ?_,
    fun pass member success => stops.le ascent member success, ?_⟩⟩
  · exact Nat.succ_le_succ (Nat.le_trans least (bounded n given))
  rcases stops with ⟨rejected, rfl, -, -, rfl⟩ | ⟨rfl, full, rfl⟩
  · exact .inl ⟨rejected, rfl, rfl⟩
  cases given : bound with
  | none =>
      -- the default bound would need an accepted pass more than bytes remain
      rw [growthCap, show s.options.growthBound = none from given, Option.getD_none] at full
      omega
  | some n =>
      rw [Nat.zero_add, cap n given] at full
      exact .inr ⟨n, rfl, rfl, congrArg (· + 1) full, by rw [cap n given]⟩

theorem growth_climbs_digits :
    let body : Expr := .orElse (.pair (.rule 0) (.prim .digit)) (.prim .digit)
    let g : Grammar := { rules := [⟨.leftRecursive, "digits", body⟩] }
    let c : Cursor := ⟨['é', '1', '2', '3'], 2, none⟩
    let s : Session := .fresh {} {}
    ∃ o t, g.run 9 (.rule 0) c s = .ok (o, t) ∧ o.index = 5 ∧
      ∃ (start : Session) (accepted : List Outcome) (rejected : Outcome) (u : Session), start.Alike s.untracked ∧
        Passes (.rule 0) (g.run 8 body) c (start.begin ⟨.rule 0, 2⟩ (firstSeed "digits" c ['1', '2', '3']))
          (accepted ++ [rejected]) u ∧ accepted.length ≤ 4 ∧ Ascent accepted o := by
  intro body g c s
  have climbs := growth_climbs g 0 ⟨.leftRecursive, "digits", body⟩ c s ['1', '2', '3'] rfl rfl rfl
    (Session.Sound.fresh _ _) rfl rfl
  have ending : (g.run 9 (.rule 0) c s).toOption.map (fun r => (r.1.isSuccess, r.1.index)) = some (true, 5) := by
    decide +kernel
  cases ran : g.run 9 (.rule 0) c s with
  | error halt => simp [ran, Except.toOption] at ending
  | ok r =>
      obtain ⟨o, t⟩ := r
      simp only [ran, Except.toOption, Option.map_some, Option.some.injEq, Prod.mk.injEq] at ending
      obtain ⟨start, passes, u, v, alike, made, -, short, -, ends⟩ := climbs.2 8 o t ran
      rcases ends with ⟨failed, -, -⟩ | ⟨accepted, ascent, -, -, ⟨rejected, rfl, -⟩ | ⟨n, bounded, -⟩⟩
      · rw [ending.1] at failed
        cases failed
      · refine ⟨o, t, rfl, ending.2, start, accepted, rejected, u, alike, made, ?_, ascent⟩
        rw [List.length_append] at short
        exact Nat.le_of_succ_le_succ short
      · cases bounded

end Grammar
end ParseEngine
