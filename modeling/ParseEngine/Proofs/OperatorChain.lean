import ParseEngine.Proofs.Repetition
import ParseEngine.Value.Transform

namespace ParseEngine

theorem Cursor.advance_index {c d : Cursor} {bytes : Nat} (moved : c.advance bytes = .ok d) :
    d.index = c.index + bytes := by
  simp only [Cursor.advance, Cursor.moveTo] at moved
  split at moved
  · cases moved
    rfl
  · cases moved

theorem Prim.one_moves {kind : Kind} {description : String} {test : Char → Bool} {v : Value} {c d : Cursor}
    (ran : (Prim.one kind description test).run c = .ok (.success v d)) : c.index < d.index := by
  have missed (failed : expected description c = .ok (.success v d)) : c.index < d.index := by
    obtain ⟨found, -, same⟩ := bind_eq_ok.1 failed
    cases same
  obtain ⟨rest, -, ran⟩ := bind_eq_ok.1 ran
  cases rest with
  | nil => exact missed ran
  | cons ch rest =>
      dsimp only at ran
      split at ran
      · obtain ⟨e, moved, same⟩ := bind_eq_ok.1 ran
        cases same
        have wide := ch.utf8Size_pos
        have index := Cursor.advance_index moved
        omega
      · exact missed ran

namespace Grammar

inductive Rounds (g : Grammar) (term op : Expr) (f : Value → Value → Value → Value) :
    Nat → Value → Cursor → Session → Value → Cursor → Session → Prop
  | done (acc : Value) (c : Cursor) (s : Session) : Rounds g term op f 0 acc c s acc c s
  | next {n : Nat} {acc acc' o b : Value} {c d e c' : Cursor} {s t u s' : Session}
      (operator : g.Evaluates op c s (.success o d) t) (operand : g.Evaluates term d t (.success b e) u)
      (rest : Rounds g term op f n (f acc o b) e u acc' c' s') : Rounds g term op f (n + 1) acc c s acc' c' s'

def Stalls (g : Grammar) (term op : Expr) (c : Cursor) (s : Session) : Prop :=
  ∃ o d t b e u, g.Evaluates op c s (.success o d) t ∧ g.Evaluates term d t (.success b e) u ∧ e.index = c.index

inductive LastRound (g : Grammar) (term op : Expr) (acc : Value) (c : Cursor) (s : Session) : Outcome → Session → Prop
  | noOperator {message found : String} {d : Cursor} {t : Session}
      (missing : g.Evaluates op c s (.failure message d found) t) : LastRound g term op acc c s (.success acc c) t
  | noTerm {o : Value} {message found : String} {d e : Cursor} {t u : Session}
      (operator : g.Evaluates op c s (.success o d) t) (missing : g.Evaluates term d t (.failure message e found) u) :
      LastRound g term op acc c s (.failure message e found) u

/-- A chain that runs its operator no more often than the given number of times gives the outcome. -/
def FoldsWithin (g : Grammar) (rounds : Nat) (term op : Expr) (f : Value → Value → Value → Value) (c : Cursor)
    (s : Session) (o : Outcome) (t : Session) : Prop :=
  ∃ fuel, Runner.foldLeft rounds (g.run fuel term) (g.run fuel op) f c s = .ok (o, t)

variable {g : Grammar} {term op : Expr} {f : Value → Value → Value → Value} {I : Cursor → Session → Prop} {n : Nat}
  {acc acc' a : Value} {c d e : Cursor} {s t u s' : Session} {o : Outcome}

theorem Rounds.foldFrom (rounds : g.Rounds term op f n acc c s acc' d u) : ∃ fuel, ∀ more, fuel ≤ more → ∀ left,
    Runner.foldFrom (g.run more term) (g.run more op) f (left + n) acc c s =
      Runner.foldFrom (g.run more term) (g.run more op) f left acc' d u := by
  induction rounds with
  | done acc c s => exact ⟨0, fun _ _ _ => rfl⟩
  | @next n acc acc' o b c d e c' s t u s' operator operand _ ih =>
      obtain ⟨first, ran⟩ := operator
      obtain ⟨second, ran'⟩ := operand
      obtain ⟨third, passed⟩ := ih
      refine ⟨max first (max second third), fun more large left => ?_⟩
      have le : first ≤ more ∧ second ≤ more ∧ third ≤ more := by omega
      calc Runner.foldFrom (g.run more term) (g.run more op) f (left + n + 1) acc c s
          = Runner.foldFrom (g.run more term) (g.run more op) f (left + n) (f acc o b) e u := by
            simp only [Runner.foldFrom, run_mono le.1 ran, ok_bind, Runner.andThen, run_mono le.2.1 ran']
        _ = _ := passed more le.2.2 left

theorem LastRound.foldFrom (last : g.LastRound term op acc c s o t) : ∃ fuel, ∀ more, fuel ≤ more → ∀ left,
    Runner.foldFrom (g.run more term) (g.run more op) f (left + 1) acc c s = .ok (o, t) := by
  cases last with
  | noOperator missing =>
      obtain ⟨fuel, ran⟩ := missing
      refine ⟨fuel, fun more le left => ?_⟩
      simp only [Runner.foldFrom, run_mono le ran, ok_bind]
      rfl
  | noTerm operator missing =>
      obtain ⟨first, ran⟩ := operator
      obtain ⟨second, ran'⟩ := missing
      refine ⟨max first second, fun more large left => ?_⟩
      have le := Nat.max_le.1 large
      simp only [Runner.foldFrom, run_mono le.1 ran, ok_bind, Runner.andThen, run_mono le.2 ran']
      rfl

theorem FoldsWithin.evaluates {rounds : Nat} (within : g.FoldsWithin rounds term op f c s o t) :
    g.Evaluates (.foldLeft term op f) c s o t := by
  obtain ⟨fuel, ran⟩ := within
  refine ⟨max fuel rounds + 1, ?_⟩
  change Runner.foldLeft _ (g.run (max fuel rounds) term) (g.run (max fuel rounds) op) f c s = _
  have below := g.run_below (Nat.le_max_left fuel rounds)
  have rest (a : Value) := Runner.foldFrom_below f (below term) (below op) (Nat.le_max_right fuel rounds) a
  exact Runner.andThen_below (below term) rest c s _ ran

theorem Rounds.foldsWithin (start : g.Evaluates term c s (.success a d) t) (rounds : g.Rounds term op f n a d t acc e u)
    (last : g.LastRound term op acc e u o s') {allowed : Nat} (enough : n < allowed) :
    g.FoldsWithin allowed term op f c s o s' := by
  obtain ⟨first, ran⟩ := start
  obtain ⟨second, passed⟩ := rounds.foldFrom
  obtain ⟨third, ends⟩ := last.foldFrom (f := f)
  obtain ⟨left, rfl⟩ := Nat.exists_eq_add_of_lt enough
  let fuel := max first (max second third)
  have le : first ≤ fuel ∧ second ≤ fuel ∧ third ≤ fuel := by omega
  refine ⟨fuel, ?_⟩
  calc Runner.foldLeft (n + left + 1) (g.run fuel term) (g.run fuel op) f c s
      = Runner.foldFrom (g.run fuel term) (g.run fuel op) f (n + left + 1) a d t := by
        simp only [Runner.foldLeft, Runner.andThen, run_mono le.1 ran, ok_bind]
    _ = Runner.foldFrom (g.run fuel term) (g.run fuel op) f (left + 1) acc e u := by
        rw [show n + left + 1 = left + 1 + n by omega, passed fuel le.2.1]
    _ = .ok (o, s') := ends fuel le.2.2 left

theorem foldsWithin_of_failure {message found : String} (missing : g.Evaluates term c s (.failure message d found) t)
    (allowed : Nat) : g.FoldsWithin allowed term op f c s (.failure message d found) t := by
  obtain ⟨fuel, ran⟩ := missing
  refine ⟨fuel, ?_⟩
  simp only [Runner.foldLeft, Runner.andThen, ran, ok_bind]
  rfl

theorem Proceeds.rounds (terms : g.Proceeds I term) (ops : g.Proceeds I op) (place : I c s) (k : Nat) (acc : Value) :
    (∃ acc' d u, g.Rounds term op f k acc c s acc' d u) ∨
      ∃ n acc' d u o t, n < k ∧ g.Rounds term op f n acc c s acc' d u ∧ g.LastRound term op acc' d u o t := by
  induction k generalizing c s acc with
  | zero => exact .inl ⟨acc, c, s, .done acc c s⟩
  | succ k ih =>
      obtain ⟨first, t, operator, moves⟩ := ops c s place
      cases first with
      | failure message d found =>
          exact .inr ⟨0, acc, c, s, _, t, Nat.zero_lt_succ k, .done acc c s, .noOperator operator⟩
      | success o d =>
          obtain ⟨-, place'⟩ := moves o d rfl
          obtain ⟨second, u, operand, moves'⟩ := terms d t place'
          cases second with
          | failure message e found =>
              exact .inr ⟨0, acc, c, s, _, u, Nat.zero_lt_succ k, .done acc c s, .noTerm operator operand⟩
          | success b e =>
              obtain ⟨-, place''⟩ := moves' b e rfl
              obtain ⟨acc', d', u', rounds⟩ | ⟨n, acc', d', u', o', t', few, rounds, last⟩ := ih place'' (f acc o b)
              · exact .inl ⟨acc', d', u', .next operator operand rounds⟩
              · exact .inr ⟨n + 1, acc', d', u', o', t', Nat.succ_lt_succ few, .next operator operand rounds, last⟩

theorem Rounds.advance (terms : g.Proceeds I term) (ops : g.Proceeds I op) (place : I c s)
    (rounds : g.Rounds term op f n acc c s acc' d u)
    (moves : ∀ m acc₁ e t, g.Rounds term op f m acc c s acc₁ e t → ¬g.Stalls term op e t)
    (inside : c.index ≤ c.length) : c.index + n ≤ c.length := by
  induction rounds with
  | done acc c s => exact inside
  | @next n acc acc' o b c d e c' s t u s' operator operand rest ih =>
      obtain ⟨first, t', operator', forward⟩ := ops c s place
      obtain ⟨rfl, rfl⟩ := operator.unique operator'
      obtain ⟨follows, place'⟩ := forward o d rfl
      obtain ⟨second, u', operand', forward'⟩ := terms d t place'
      obtain ⟨rfl, rfl⟩ := operand.unique operand'
      obtain ⟨follows', place''⟩ := forward' b e rfl
      have le : c.index ≤ d.index := follows.le
      have le' : d.index ≤ e.index := follows'.le
      have further : e.index ≠ c.index := fun still =>
        moves 0 acc c s (.done acc c s) ⟨o, d, t, b, e, u, operator, operand, still⟩
      have length : d.length = c.length := congrArg Text.byteLength follows.fits.text
      have length' : e.length = d.length := congrArg Text.byteLength follows'.fits.text
      have inside' : e.index ≤ d.length := follows'.fits.index_le
      have onward := ih place'' (fun m acc₁ e' t' rounds => moves (m + 1) acc₁ e' t' (.next operator operand rounds))
        (by omega)
      omega

theorem Rounds.foldFrom_ok (rounds : g.Rounds term op f n acc c s acc' d u) {fuel allowed : Nat}
    (ran : Runner.foldFrom (g.run fuel term) (g.run fuel op) f allowed acc c s = .ok (o, t)) :
    ∃ left, allowed = left + n ∧ Runner.foldFrom (g.run fuel term) (g.run fuel op) f left acc' d u = .ok (o, t) := by
  induction rounds generalizing allowed with
  | done acc c s => exact ⟨allowed, rfl, ran⟩
  | next operator operand _ ih =>
      cases allowed with
      | zero => cases ran
      | succ allowed =>
          obtain ⟨⟨first, t'⟩, ran₁, ran⟩ := bind_eq_ok.1 ran
          obtain ⟨rfl, rfl⟩ := operator.unique ⟨fuel, ran₁⟩
          obtain ⟨⟨second, u'⟩, ran₂, ran⟩ := bind_eq_ok.1 ran
          obtain ⟨rfl, rfl⟩ := operand.unique ⟨fuel, ran₂⟩
          obtain ⟨left, rfl, goesOn⟩ := ih ran
          exact ⟨left, rfl, goesOn⟩

theorem FoldsWithin.lt {allowed : Nat} (within : g.FoldsWithin allowed term op f c s o t)
    (start : g.Evaluates term c s (.success a d) u) (rounds : g.Rounds term op f n a d u acc e s') : n < allowed := by
  obtain ⟨fuel, ran⟩ := within
  obtain ⟨⟨first, t'⟩, ran₁, ran⟩ := bind_eq_ok.1 ran
  obtain ⟨rfl, rfl⟩ := start.unique ⟨fuel, ran₁⟩
  obtain ⟨left, rfl, ends⟩ := rounds.foldFrom_ok ran
  cases left with
  | zero => cases ends
  | succ left => omega

theorem evaluates_foldLeft_iff :
    g.Evaluates (.foldLeft term op f) c s o t ↔ ∃ allowed, g.FoldsWithin allowed term op f c s o t := by
  constructor
  · rintro ⟨fuel, ran⟩
    cases fuel with
    | zero => cases ran
    | succ fuel => exact ⟨fuel, fuel, ran⟩
  · rintro ⟨allowed, within⟩
    exact within.evaluates

theorem Proceeds.foldsWithin (terms : g.Proceeds I term) (ops : g.Proceeds I op) (place : I c s) {allowed : Nat}
    (few : ∀ a d t acc e u, g.Evaluates term c s (.success a d) t → ¬g.Rounds term op f allowed a d t acc e u) :
    ∃ o t, g.FoldsWithin allowed term op f c s o t := by
  obtain ⟨first, t, start, moves⟩ := terms c s place
  cases first with
  | failure message d found => exact ⟨_, t, foldsWithin_of_failure start allowed⟩
  | success a d =>
      obtain ⟨-, place'⟩ := moves a d rfl
      obtain ⟨acc, e, u, rounds⟩ | ⟨n, acc, e, u, o, t', fewer, rounds, last⟩ := terms.rounds ops place' allowed a
      · exact absurd rounds (few a d t acc e u start)
      · exact ⟨o, t', rounds.foldsWithin start last fewer⟩

/-- A chain runs its operator at most so many times if and only if it does not have so many rounds that succeed, and it
returns if and only if there is such a bound. As long as each of its rounds moves on, the bytes that remain, and one,
are one. -/
theorem foldLeft_returns_unless_stalled (g : Grammar) (term op : Expr) (f : Value → Value → Value → Value)
    (I : Cursor → Session → Prop) (c : Cursor) (s : Session) (rest : List Char) (terms : g.Proceeds I term)
    (ops : g.Proceeds I op) (place : I c s) (remains : c.remaining = .ok rest) :
    (∀ k, (∃ o t, g.FoldsWithin k term op f c s o t) ↔
      ∀ a d t acc e u, g.Evaluates term c s (.success a d) t → ¬g.Rounds term op f k a d t acc e u) ∧
    (∀ o t, g.Evaluates (.foldLeft term op f) c s o t ↔ ∃ k, g.FoldsWithin k term op f c s o t) ∧
    ((∀ n a d t acc e u, g.Evaluates term c s (.success a d) t → g.Rounds term op f n a d t acc e u →
        ¬g.Stalls term op e u) →
      ∃ o t, g.FoldsWithin (Text.byteLength rest + 1) term op f c s o t) := by
  refine ⟨fun k => ⟨?_, terms.foldsWithin ops place⟩, fun o t => evaluates_foldLeft_iff, fun advances => ?_⟩
  · rintro ⟨o, t, within⟩ a d t' acc e u start rounds
    exact Nat.lt_irrefl k (within.lt start rounds)
  · refine terms.foldsWithin ops place fun a d t acc e u start rounds => ?_
    obtain ⟨first, t', start', forward⟩ := terms c s place
    obtain ⟨rfl, rfl⟩ := start.unique start'
    obtain ⟨follows, place'⟩ := forward a d rfl
    have left := Cursor.index_add_remaining remains
    have le : c.index ≤ d.index := follows.le
    have inside : d.index ≤ c.length := follows.fits.index_le
    have length : d.length = c.length := congrArg Text.byteLength follows.fits.text
    have few := rounds.advance terms ops place' (fun m acc₁ e' u' => advances m a d t acc₁ e' u' start) (by omega)
    omega

theorem proceeds_prim (g : Grammar) (text : List Char) (p : Prim) :
    g.Proceeds (fun c _ => c.Fits ⟨text, false, false⟩) (.prim p) := by
  intro c s fits
  obtain ⟨o, ran, follows⟩ := p.run_follows fits
  refine ⟨o, s, Evaluates.prim_iff.2 ⟨ran, rfl⟩, ?_⟩
  rintro v d rfl
  exact ⟨fits.text ▸ follows, follows.fits⟩

theorem foldLeft_returns_unless_stalled_signs :
    let place (index : Nat) : Cursor := ⟨['-', ' ', '-', 'x'], index, none⟩
    ∃ o t, Grammar.FoldsWithin {} 5 (.prim .spaces) (.prim (.char '-')) (fun a _ _ => a) (place 0) {} o t := by
  intro place
  have fits : (place 0).Fits ⟨(place 0).text, false, false⟩ := ⟨rfl, rfl, fun plain => absurd plain Bool.false_ne_true⟩
  have advances (e : Cursor) (u : Session) : ¬Grammar.Stalls {} (.prim .spaces) (.prim (.char '-')) e u := by
    rintro ⟨o, d, t, b, e', u', operator, operand, still⟩
    obtain ⟨sign, -⟩ := Evaluates.prim_iff.1 operator
    obtain ⟨blanks, -⟩ := Evaluates.prim_iff.1 operand
    have moves : e.index < d.index := Prim.one_moves sign
    obtain ⟨rest, -, blanks⟩ := bind_eq_ok.1 blanks
    obtain ⟨d', moved, same⟩ := bind_eq_ok.1 blanks
    cases same
    have stays := Cursor.advance_index moved
    omega
  exact (foldLeft_returns_unless_stalled {} (.prim .spaces) (.prim (.char '-')) (fun a _ _ => a) _ (place 0) {}
    (place 0).text (proceeds_prim {} _ _) (proceeds_prim {} _ _) fits rfl).2.2 fun _ _ _ _ _ e u _ _ => advances e u

/-- Without a guard a chain of empty terms and operators does not return, and a chain that carries a context can run
its operator more often than the text allows. -/
theorem foldLeft_unguarded :
    let still : Expr := .prim (.succeed .unit)
    let count : Expr := .adapt (.filter (Test.not (.equals (.int 3))).holds "enough")
      (.skipThen (.prim (.updateContext Transform.increment.apply)) (.prim .readContext))
    let place (n : Int64) : Cursor := ⟨[], 0, some (.int n)⟩
    let I (c : Cursor) (s : Session) : Prop := s = {} ∧ ∃ n, c = place n
    let f (a o b : Value) : Value := .list [a, o, b]
    (Grammar.Proceeds {} I still ∧ ∀ o t, ¬Grammar.Evaluates {} (.foldLeft still still f) (place 0) {} o t) ∧
    Grammar.Proceeds {} I (.prim .readContext) ∧ Grammar.Proceeds {} I count ∧
    (∃ v, Grammar.Evaluates {} (.foldLeft (.prim .readContext) count f) (place 0) {} (.success v (place 2)) {}) ∧
    ∀ o t, ¬Grammar.FoldsWithin {} 1 (.prim .readContext) count f (place 0) {} o t := by
  intro still count place I f
  have stays (n : Int64) (v : Value) (m : Int64) :
      (Outcome.success v (place m)).Follows ⟨(place n).text, false, false⟩ (place n).index :=
    ⟨⟨rfl, rfl, fun plain => absurd plain Bool.false_ne_true⟩, Nat.le_refl _⟩
  have staying (p : Prim) (v : Int64 → Value) (ran : ∀ n, p.run (place n) = .ok (.success (v n) (place n))) :
      Grammar.Proceeds {} I (.prim p) := by
    rintro c s ⟨rfl, n, rfl⟩
    refine ⟨_, {}, Evaluates.prim_iff.2 ⟨ran n, rfl⟩, fun w d same => ?_⟩
    cases same
    exact ⟨stays n _ n, rfl, n, rfl⟩
  have idle : Grammar.Proceeds {} I still := staying _ (fun _ => .unit) fun _ => rfl
  have reads : Grammar.Proceeds {} I (.prim .readContext) := staying _ (fun n => .int n) fun _ => rfl
  have counts : Grammar.Proceeds {} I count := by
    rintro c s ⟨rfl, n, rfl⟩
    by_cases last : n + 1 = 3
    · obtain rfl : n = 2 := by rw [← Int64.add_sub_cancel n 1, last]; rfl
      exact ⟨_, {}, ⟨4, rfl⟩, fun v d same => nomatch same⟩
    · refine ⟨.success (.int (n + 1)) (place (n + 1)), {}, ⟨4, ?_⟩, fun v d same => ?_⟩
      · change (do return (← Adapter.apply (.filter (Test.not (.equals (.int 3))).holds "enough") (place n)
          (.success (.int (n + 1)) (place (n + 1))), ({} : Session)) : Except Halt (Outcome × Session)) = _
        have other : (Test.not (.equals (.int 3))).holds (.int (n + 1)) = true := by
          change (!(n + 1 == 3)) = true
          simp [last]
        simp only [Adapter.apply, other]
        rfl
      · cases same
        exact ⟨stays n _ (n + 1), rfl, n + 1, rfl⟩
  refine ⟨⟨idle, fun o t ran => ?_⟩, reads, counts, ⟨_, 9, rfl⟩, fun o t within => ?_⟩
  · have again (n : Nat) (acc : Value) :
        ∃ acc', Grammar.Rounds {} still still f n acc (place 0) {} acc' (place 0) {} := by
      induction n generalizing acc with
      | zero => exact ⟨acc, .done acc _ _⟩
      | succ n ih =>
          obtain ⟨acc', rounds⟩ := ih (f acc .unit .unit)
          exact ⟨acc', .next ⟨1, rfl⟩ ⟨1, rfl⟩ rounds⟩
    obtain ⟨allowed, within⟩ := evaluates_foldLeft_iff.1 ran
    obtain ⟨acc', rounds⟩ := again allowed .unit
    exact Nat.lt_irrefl allowed (within.lt ⟨1, rfl⟩ rounds)
  · have first : Grammar.Rounds {} (.prim .readContext) count f 1 (.int 0) (place 0) {}
        (f (.int 0) (.int 1) (.int 1)) (place 1) {} := .next ⟨4, rfl⟩ ⟨1, rfl⟩ (.done _ _ _)
    exact Nat.lt_irrefl 1 (within.lt ⟨1, rfl⟩ first)

end Grammar
end ParseEngine
