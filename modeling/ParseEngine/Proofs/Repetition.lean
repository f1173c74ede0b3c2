import ParseEngine.Proofs.Fuel

/-!
Repetitions collect the longest chain of rounds.

Where a parser always returns and never moves back, its rounds from a cursor form a chain, each round further on than
the one before, until a round fails or succeeds without moving on. A repetition runs through the chain and one round
more, so it needs no more rounds than bytes remain, and one.
-/

namespace ParseEngine
namespace Grammar

inductive Climbs (g : Grammar) (p : Expr) : Cursor → Session → List Value → Cursor → Session → Prop
  | done (c : Cursor) (s : Session) : Climbs g p c s [] c s
  | next {c d e : Cursor} {s t u : Session} {v : Value} {vs : List Value} (round : g.Evaluates p c s (.success v d) t)
      (further : c.index < d.index) (rest : Climbs g p d t vs e u) : Climbs g p c s (v :: vs) e u

/-- From cursors and sessions of a kind the parser returns, and its successes lie between the characters of the text,
not before the cursor, and are of the kind again. -/
def Proceeds (g : Grammar) (I : Cursor → Session → Prop) (p : Expr) : Prop :=
  ∀ c s, I c s → ∃ o t, g.Evaluates p c s o t ∧
    ∀ v d, o = .success v d → o.Follows ⟨c.text, false, false⟩ c.index ∧ I d t

def RepeatsWithin (g : Grammar) (rounds : Nat) (required : Bool) (p : Expr) (c : Cursor) (s : Session) (o : Outcome)
    (t : Session) : Prop :=
  ∃ fuel, Runner.many required rounds (g.run fuel p) c s = .ok (o, t)

variable {g : Grammar} {p : Expr} {I : Cursor → Session → Prop} {required : Bool} {c d e : Cursor}
  {s t u : Session} {v : Value} {vs : List Value} {o : Outcome}

theorem Evaluates.unique {o' : Outcome} {t' : Session} (first : g.Evaluates p c s o t)
    (second : g.Evaluates p c s o' t') : o = o' ∧ t = t' := by
  obtain ⟨fuel, ran⟩ := first
  obtain ⟨fuel', ran'⟩ := second
  exact Prod.mk.inj (run_unique ran ran')

theorem Climbs.manyFrom (climbs : g.Climbs p c s vs d u) (required : Bool) : ∃ fuel, ∀ more, fuel ≤ more →
    ∀ left collected, Runner.manyFrom required (g.run more p) (left + vs.length) collected c s =
      Runner.manyFrom required (g.run more p) left (vs.reverse ++ collected) d u := by
  induction climbs with
  | done c s => exact ⟨0, fun more _ left collected => rfl⟩
  | @next c d e s t u v vs round further rest ih =>
      obtain ⟨first, ran⟩ := round
      obtain ⟨second, passed⟩ := ih
      refine ⟨max first second, fun more enough left collected => ?_⟩
      have le := Nat.max_le.1 enough
      have moved : d.index ≠ c.index := Nat.ne_of_gt further
      calc Runner.manyFrom required (g.run more p) (left + vs.length + 1) collected c s
          = Runner.manyFrom required (g.run more p) (left + vs.length) (v :: collected) d t := by
            simp only [Runner.manyFrom, run_mono le.1 ran, ok_bind, if_neg moved]
        _ = Runner.manyFrom required (g.run more p) left (vs.reverse ++ v :: collected) e u :=
            passed more le.2 left (v :: collected)
        _ = _ := by simp

inductive Ending (required : Bool) (vs : List Value) (d : Cursor) : (round o : Outcome) → Prop
  | collected {message found : String} {e : Cursor} (enough : required → vs ≠ []) :
      Ending required vs d (.failure message e found) (.success (.list vs) d)
  | refused {message found : String} {e : Cursor} (first : required) (none : vs = []) :
      Ending required vs d (.failure message e found) (.failure message e found)
  | stuck {v : Value} {e : Cursor} {found : String} (still : e.index = d.index) (shown : d.preview = .ok found) :
      Ending required vs d (.success v e) (.failure Runner.stuckMessage d found)

theorem Ending.manyFrom {q : Runner} {round : Outcome} (ending : Ending required vs d round o)
    (ran : q d u = .ok (round, t)) (left : Nat) :
    Runner.manyFrom required q (left + 1) vs.reverse d u = .ok (o, t) := by
  cases ending with
  | collected enough =>
      have goesOn : ¬((required && vs.reverse.isEmpty) = true) := by
        cases required with
        | false => simp
        | true => simpa using enough rfl
      simp only [Runner.manyFrom, ran, ok_bind, if_neg goesOn, List.reverse_reverse]
      rfl
  | refused first none =>
      subst none
      simp only [Runner.manyFrom, ran, ok_bind, first]
      rfl
  | stuck still shown =>
      simp only [Runner.manyFrom, ran, ok_bind, if_pos still, Runner.failHere, Outcome.failAt, shown]
      rfl

theorem Climbs.repeats {round : Outcome} (climbs : g.Climbs p c s vs d u) (last : g.Evaluates p d u round t)
    (ending : Ending required vs d round o) {rounds : Nat} (enough : vs.length < rounds) :
    ∃ fuel, ∀ more, fuel ≤ more → Runner.many required rounds (g.run more p) c s = .ok (o, t) := by
  obtain ⟨first, passed⟩ := climbs.manyFrom required
  obtain ⟨second, ran⟩ := last
  obtain ⟨left, rfl⟩ := Nat.exists_eq_add_of_lt enough
  refine ⟨max first second, fun more large => ?_⟩
  have le := Nat.max_le.1 large
  have split : vs.length + left + 1 = left + 1 + vs.length := by omega
  rw [Runner.many, split, passed more le.1, List.append_nil]
  exact ending.manyFrom (run_mono le.2 ran) left

theorem Climbs.evaluates {round : Outcome} (climbs : g.Climbs p c s vs d u) (last : g.Evaluates p d u round t)
    (ending : Ending required vs d round o) : g.Evaluates (.many required p) c s o t := by
  obtain ⟨fuel, ran⟩ := climbs.repeats last ending (Nat.lt_succ_self vs.length)
  let more := max fuel (vs.length + 1)
  refine ⟨more + 1, ?_⟩
  change Runner.many required more (g.run more p) c s = _
  exact Runner.manyFrom_below required (fun c s => .refl _) (Nat.le_max_right fuel _) [] c s _
    (ran more (Nat.le_max_left fuel _))

theorem Proceeds.climbs (proceeds : g.Proceeds I p) (place : I c s) {remaining : Nat}
    (left : c.index + remaining = c.length) : ∃ vs d u round t, g.Climbs p c s vs d u ∧ g.Evaluates p d u round t ∧
      vs.length ≤ remaining ∧ ∀ v e, round = .success v e → e.index = d.index ∧ e.Fits ⟨d.text, false, false⟩ := by
  induction remaining using Nat.strongRecOn generalizing c s with
  | _ remaining onward =>
      obtain ⟨o, t, ran, moves⟩ := proceeds c s place
      cases o with
      | failure message e found =>
          exact ⟨[], c, s, _, t, .done c s, ran, Nat.zero_le _, fun _ _ same => nomatch same⟩
      | success v e =>
          obtain ⟨follows, kind⟩ := moves v e rfl
          by_cases still : e.index = c.index
          · refine ⟨[], c, s, _, t, .done c s, ran, Nat.zero_le _, fun w e' same => ?_⟩
            cases same
            exact ⟨still, follows.fits⟩
          · have further : c.index < e.index := Nat.lt_of_le_of_ne follows.le (Ne.symm still)
            have inside : e.index ≤ c.length := follows.fits.index_le
            have length : e.length = c.length := congrArg Text.byteLength follows.fits.text
            obtain ⟨vs, d, u, round, t', climbs, last, few, ends⟩ :=
              onward (c.length - e.index) (by omega) kind (by omega)
            refine ⟨v :: vs, d, u, round, t', .next ran further climbs, last, ?_, ends⟩
            simp only [List.length_cons]
            omega

theorem Proceeds.ends (proceeds : g.Proceeds I p) (required : Bool) (place : I c s) {remaining : Nat}
    (left : c.index + remaining = c.length) : ∃ vs d u round o t, g.Climbs p c s vs d u ∧ g.Evaluates p d u round t ∧
      Ending required vs d round o ∧ vs.length ≤ remaining := by
  obtain ⟨vs, d, u, round, t, climbs, last, few, ends⟩ := proceeds.climbs place left
  cases round with
  | success v e =>
      obtain ⟨still, fits⟩ := ends v e rfl
      have here : d.Fits ⟨d.text, false, false⟩ := ⟨rfl, still ▸ fits.boundary, fun plain => nomatch plain⟩
      obtain ⟨before, rest, remains, -, -⟩ := here.remaining
      have shown : d.preview = .ok (Cursor.previewOf rest) := by rw [Cursor.preview, remains]; rfl
      exact ⟨vs, d, u, _, _, t, climbs, last, .stuck still shown, few⟩
  | failure message e found =>
      by_cases first : required = true ∧ vs = []
      · exact ⟨vs, d, u, _, _, t, climbs, last, .refused first.1 first.2, few⟩
      · exact ⟨vs, d, u, _, _, t, climbs, last, .collected fun need none => first ⟨need, none⟩, few⟩

theorem many_collects (g : Grammar) (p : Expr) (I : Cursor → Session → Prop) (required : Bool) (c : Cursor)
    (s : Session) (rest : List Char) (proceeds : g.Proceeds I p) (place : I c s) (remains : c.remaining = .ok rest) :
    (∃ o t, g.RepeatsWithin (Text.byteLength rest + 1) required p c s o t ∧ g.Evaluates (.many required p) c s o t) ∧
    (∀ v d t, g.Evaluates (.many required p) c s (.success v d) t ↔
      ∃ vs u, v = .list vs ∧ (required → vs ≠ []) ∧ g.Climbs p c s vs d u ∧
        ∃ failure : Failure, g.Evaluates p d u failure.toOutcome t) ∧
    ∀ message d found t, g.Evaluates (.many required p) c s (.failure message d found) t ↔
      (message = Runner.stuckMessage ∧ d.preview = .ok found ∧
        ∃ vs u v e, g.Climbs p c s vs d u ∧ g.Evaluates p d u (.success v e) t ∧ e.index = d.index) ∨
      (required = true ∧ g.Evaluates p c s (.failure message d found) t) := by
  have left := Cursor.index_add_remaining remains
  obtain ⟨vs, d, u, round, o, t, climbs, last, ending, few⟩ := proceeds.ends required place left
  have whole : g.Evaluates (.many required p) c s o t := climbs.evaluates last ending
  -- there is no other outcome, so how the chain ends tells both when it succeeds and when it fails
  refine ⟨⟨o, t, ?_, whole⟩, ?_, ?_⟩
  · obtain ⟨fuel, ran⟩ := climbs.repeats last ending (Nat.lt_succ_of_le few)
    exact ⟨fuel, ran fuel (Nat.le_refl fuel)⟩
  · intro v d' t'
    constructor
    · intro ran
      obtain ⟨rfl, rfl⟩ := whole.unique ran
      cases ending with
      | @collected message found e enough => exact ⟨vs, u, rfl, enough, climbs, ⟨message, e, found⟩, last⟩
    · rintro ⟨ws, u', rfl, enough, climbs, failure, last⟩
      exact climbs.evaluates last (.collected enough)
  · intro message d' found t'
    constructor
    · intro ran
      obtain ⟨rfl, rfl⟩ := whole.unique ran
      cases ending with
      | refused first none =>
          subst none
          cases climbs
          exact .inr ⟨first, last⟩
      | stuck still shown => exact .inl ⟨rfl, shown, vs, u, _, _, climbs, last, still⟩
    · rintro (⟨rfl, shown, ws, u', v, e, climbs, last, still⟩ | ⟨first, ran⟩)
      · exact climbs.evaluates last (.stuck still shown)
      · exact (Climbs.done c s).evaluates ran (.refused first rfl)

theorem many_collects_before_partial_literal :
    let p : Expr := .prim (.literal "ab")
    let place (index : Nat) : Cursor := ⟨['a', 'b', 'a', 'b', 'a', 'c'], index, none⟩
    Grammar.Evaluates { rules := [] } (.many true p) (place 0) {}
      (.success (.list [.text "ab", .text "ab"]) (place 4)) {} := by
  intro p place
  have proceeds : Grammar.Proceeds { rules := [] } (fun c _ => c.Fits ⟨(place 0).text, false, false⟩) p := by
    intro c s fits
    obtain ⟨o, ran, follows⟩ := Prim.run_follows (.literal "ab") fits
    refine ⟨o, s, ⟨1, ?_⟩, ?_⟩
    · simp only [Grammar.run, ran, p]
      rfl
    · rintro v d rfl
      exact ⟨fits.text ▸ follows, follows.fits⟩
  have fits : (place 0).Fits ⟨(place 0).text, false, false⟩ := ⟨rfl, rfl, fun plain => absurd plain Bool.false_ne_true⟩
  refine ((many_collects _ p _ true (place 0) {} (place 0).text proceeds fits rfl).2.1 _ _ _).2
    ⟨[.text "ab", .text "ab"], {}, rfl, fun _ => by simp, ?_, ⟨_, place 5, _⟩, 1, rfl⟩
  have second : Grammar.Climbs { rules := [] } p (place 2) {} [.text "ab"] (place 4) {} :=
    .next ⟨1, rfl⟩ (by decide) (.done _ _)
  exact .next ⟨1, rfl⟩ (by decide) second

end Grammar
end ParseEngine
