import ParseEngine.Proofs.OperatorChain

namespace ParseEngine

def Value.joined : Value → Value
  | .pair v (.list vs) => .list (v :: vs)
  | v => v

def Expr.listOf (item separator : Expr) : Expr :=
  .adapt (.map Value.joined) (.pair item (.many false (.skipThen separator item)))

namespace Runner
variable (p q item separator : Runner)

theorem mapValue_id : p.mapValue (fun v => v) = p := by
  funext c s
  simp only [mapValue]
  cases p c s with
  | error halt => rfl
  | ok r =>
      obtain ⟨o, t⟩ := r
      cases o with
      | success v d => rfl
      | failure message d found => rfl

theorem adapt_map_pair (f : Value → Value) :
    adapt (.map f) (p.pair q) = p.andThen fun v => q.mapValue (f ∘ .pair v) := by
  funext c s
  simp only [adapt, pair, andThen, mapValue]
  cases p c s with
  | error halt => rfl
  | ok r =>
      obtain ⟨o, t⟩ := r
      cases o with
      | failure message d found => rfl
      | success v d =>
          simp only [ok_bind, bind_assoc]
          cases q d t with
          | error halt => rfl
          | ok r =>
              obtain ⟨o, u⟩ := r
              cases o with
              | success w e => rfl
              | failure message e found => rfl

theorem separatedFrom_eq_manyFrom (fuel : Nat) (collected : List Value) :
    separatedFrom item separator fuel collected = manyFrom false (separator.andThen fun _ => item) fuel collected := by
  induction fuel generalizing collected with
  | zero => rfl
  | succ fuel ih =>
      funext c s
      simp only [separatedFrom, manyFrom, andThen]
      cases separator c s with
      | error halt => rfl
      | ok r =>
          obtain ⟨o, t⟩ := r
          cases o with
          | failure message d found => rfl
          | success v d =>
              simp only [ok_bind]
              cases item d t with
              | error halt => rfl
              | ok r =>
                  obtain ⟨o, u⟩ := r
                  cases o with
                  | failure message e found => rfl
                  | success w e => simp only [ok_bind, ih]

theorem manyFrom_append (fuel : Nat) (collected : List Value) (v : Value) :
    manyFrom false p fuel (collected ++ [v]) = (manyFrom false p fuel collected).mapValue (Value.joined ∘ .pair v) := by
  induction fuel generalizing collected with
  | zero => rfl
  | succ fuel ih =>
      funext c s
      simp only [manyFrom, mapValue, bind_assoc]
      cases p c s with
      | error halt => rfl
      | ok r =>
          obtain ⟨o, t⟩ := r
          cases o with
          | failure message d found =>
              simp only [ok_bind, List.reverse_append]
              rfl
          | success w d =>
              simp only [ok_bind]
              split
              · simp only [failHere, Outcome.failAt, bind_assoc]
                cases c.preview with
                | error halt => rfl
                | ok found => rfl
              · rw [← List.cons_append, ih]
                rfl

theorem separatedFrom_singleton (fuel : Nat) (v : Value) : separatedFrom item separator fuel [v] =
    (many false fuel (separator.andThen fun _ => item)).mapValue (Value.joined ∘ .pair v) := by
  rw [separatedFrom_eq_manyFrom]
  exact manyFrom_append _ fuel [] v

theorem sepBy_eq_adapt_pair (fuel : Nat) : sepBy true fuel item separator =
    adapt (.map Value.joined) (pair item (many false fuel (separator.andThen fun _ => item))) := by
  have goesOn : sepBy true fuel item separator = item.andThen fun v => separatedFrom item separator fuel [v] := rfl
  rw [goesOn, adapt_map_pair]
  simp only [separatedFrom_singleton]

section First
variable {item separator} {required : Bool} {c d : Cursor} {s t : Session} {v : Value} {message found : String}

theorem sepBy_of_success (first : item c s = .ok (.success v d, t)) (fuel : Nat) :
    sepBy required fuel item separator c s = separatedFrom item separator fuel [v] d t := by
  rw [sepBy, first]
  rfl

theorem sepBy_of_failure (first : item c s = .ok (.failure message d found, t)) (fuel : Nat) :
    sepBy required fuel item separator c s =
      .ok (if required then .failure message d found else .success (.list []) c, t) := by
  rw [sepBy, first]
  cases required with
  | true => rfl
  | false => rfl

end First

end Runner

namespace Grammar

def SeparatesWithin (g : Grammar) (rounds : Nat) (required : Bool) (item separator : Expr) (c : Cursor) (s : Session)
    (o : Outcome) (t : Session) : Prop :=
  ∃ fuel, Runner.sepBy required rounds (g.run fuel item) (g.run fuel separator) c s = .ok (o, t)

def EndsAtItem (g : Grammar) (item separator : Expr) (d : Cursor) (t : Session) : Prop :=
  ∃ e u v t', g.Evaluates item e u (.success v d) t' ∧
    ∃ failure : Failure, g.Evaluates (.skipThen separator item) d t' failure.toOutcome t

variable {g : Grammar} {p item separator : Expr} {I : Cursor → Session → Prop} {required : Bool} {c d e : Cursor}
  {s t u : Session} {v : Value} {vs : List Value} {o : Outcome}

theorem run_skipThen (g : Grammar) (fuel : Nat) (a b : Expr) :
    g.run (fuel + 2) (.skipThen a b) = (g.run fuel a).andThen fun _ => g.run fuel b := by
  change Runner.adapt (.map _) (Runner.pair (g.run fuel a) (g.run fuel b)) = _
  rw [Runner.adapt_map_pair]
  congr 1
  funext v
  exact Runner.mapValue_id _

theorem run_listOf (g : Grammar) (fuel : Nat) (item separator : Expr) : g.run (fuel + 5) (.listOf item separator) =
    .adapt (.map Value.joined) (.pair (g.run (fuel + 3) item)
      (.many false (fuel + 2) ((g.run fuel separator).andThen fun _ => g.run fuel item))) := by
  rw [← run_skipThen]
  rfl

theorem evaluates_sepBy_iff_listOf :
    g.Evaluates (.sepBy true item separator) c s o t ↔ g.Evaluates (.listOf item separator) c s o t := by
  -- the two sides spend their fuel differently, but each gives what the other gives with a little more of it
  constructor
  · rintro ⟨fuel, ran⟩
    refine ⟨fuel + 5, ?_⟩
    have more := run_mono (Nat.le_succ fuel) ran
    change Runner.sepBy true fuel (g.run fuel item) (g.run fuel separator) c s = _ at more
    rw [Runner.sepBy_eq_adapt_pair] at more
    rw [run_listOf]
    have first := g.run_below (Nat.le_add_right fuel 3) item
    have rounds := Runner.manyFrom_below (p := (g.run fuel separator).andThen fun _ => g.run fuel item) false
      (fun c s => .refl _) (Nat.le_add_right fuel 2) []
    exact Runner.adapt_below _ (Runner.pair_below first rounds) c s _ more
  · rintro ⟨fuel, ran⟩
    refine ⟨fuel + 4, ?_⟩
    have more := run_mono (Nat.le_add_right fuel 5) ran
    rw [run_listOf] at more
    change Runner.sepBy true (fuel + 3) (g.run (fuel + 3) item) (g.run (fuel + 3) separator) c s = _
    rw [Runner.sepBy_eq_adapt_pair]
    have le := Nat.le_add_right fuel 3
    have round := Runner.andThen_below (g.run_below le separator) fun _ => g.run_below le item
    have rounds := Runner.manyFrom_below false round (Nat.le_succ (fuel + 2)) []
    exact Runner.adapt_below _ (Runner.pair_below (fun c s => .refl _) rounds) c s _ more

theorem SeparatesWithin.evaluates {rounds : Nat} (within : g.SeparatesWithin rounds required item separator c s o t) :
    g.Evaluates (.sepBy required item separator) c s o t := by
  obtain ⟨fuel, ran⟩ := within
  let more := max fuel rounds
  have le : fuel ≤ more := Nat.le_max_left fuel rounds
  refine ⟨more + 1, ?_⟩
  change Runner.sepBy required more (g.run more item) (g.run more separator) c s = _
  exact Runner.sepBy_below required (g.run_below le item) (g.run_below le separator) (Nat.le_max_right fuel rounds)
    c s _ ran

theorem evaluates_sepBy_iff : g.Evaluates (.sepBy required item separator) c s o t ↔
    ∃ rounds, g.SeparatesWithin rounds required item separator c s o t := by
  constructor
  · rintro ⟨fuel, ran⟩
    cases fuel with
    | zero => cases ran
    | succ fuel => exact ⟨fuel, fuel, ran⟩
  · rintro ⟨rounds, within⟩
    exact within.evaluates

theorem separatesWithin_of_failure {message found : String} (first : g.Evaluates item c s (.failure message d found) t)
    (rounds : Nat) (required : Bool) : g.SeparatesWithin rounds required item separator c s
      (if required then .failure message d found else .success (.list []) c) t := by
  obtain ⟨fuel, ran⟩ := first
  exact ⟨fuel, Runner.sepBy_of_failure ran rounds⟩

theorem SeparatesWithin.of_success {rounds : Nat} (within : g.SeparatesWithin rounds required item separator c s o t)
    (first : g.Evaluates item c s (.success v d) u) (required' : Bool) :
    g.SeparatesWithin rounds required' item separator c s o t := by
  obtain ⟨fuel, ran⟩ := within
  obtain ⟨fuel', began⟩ := first
  let more := max fuel fuel'
  have le : fuel ≤ more := Nat.le_max_left fuel fuel'
  have ran := Runner.sepBy_below required (g.run_below le item) (g.run_below le separator) (Nat.le_refl rounds) c s
    _ ran
  have began := run_mono (Nat.le_max_right fuel fuel') began
  rw [Runner.sepBy_of_success began] at ran
  exact ⟨more, (Runner.sepBy_of_success began rounds).trans ran⟩

theorem evaluates_sepBy_iff_required : g.Evaluates (.sepBy false item separator) c s o t ↔
    (∃ failure : Failure, g.Evaluates item c s failure.toOutcome t ∧ o = .success (.list []) c) ∨
    (∃ v d u, g.Evaluates item c s (.success v d) u) ∧ g.Evaluates (.sepBy true item separator) c s o t := by
  constructor
  · intro whole
    obtain ⟨rounds, within⟩ := evaluates_sepBy_iff.1 whole
    have ⟨fuel, ran⟩ := within
    obtain ⟨⟨first, u⟩, began, -⟩ := bind_eq_ok.1 ran
    cases first with
    | failure message d found =>
        obtain ⟨rfl, rfl⟩ := whole.unique (separatesWithin_of_failure ⟨fuel, began⟩ 0 false).evaluates
        exact .inl ⟨⟨message, d, found⟩, ⟨fuel, began⟩, rfl⟩
    | success v d =>
        have first : g.Evaluates item c s (.success v d) u := ⟨fuel, began⟩
        exact .inr ⟨⟨v, d, u, first⟩, (within.of_success first true).evaluates⟩
  · rintro (⟨failure, first, rfl⟩ | ⟨⟨v, d, u, first⟩, whole⟩)
    · exact (separatesWithin_of_failure first 0 false).evaluates
    · obtain ⟨rounds, within⟩ := evaluates_sepBy_iff.1 whole
      exact (within.of_success first false).evaluates

theorem Climbs.separates {round : Outcome} {rounds : Nat} (first : g.Evaluates item c s (.success v d) u)
    (climbs : g.Climbs (.skipThen separator item) d u vs e t) {t' : Session}
    (last : g.Evaluates (.skipThen separator item) e t round t') (ending : Ending false vs e round o)
    (enough : vs.length < rounds) (required : Bool) :
    g.SeparatesWithin rounds required item separator c s (o.map (Value.joined ∘ .pair v)) t' := by
  obtain ⟨fuel, repeats⟩ := climbs.repeats last ending enough
  obtain ⟨fuel', began⟩ := first
  let more := max fuel fuel'
  have ran := repeats (more + 2) (Nat.le_add_right_of_le (Nat.le_max_left fuel fuel'))
  rw [run_skipThen] at ran
  refine ⟨more, ?_⟩
  rw [Runner.sepBy_of_success (run_mono (Nat.le_max_right fuel fuel') began), Runner.separatedFrom_singleton,
    Runner.mapValue, ran]
  rfl

theorem Evaluates.of_skipThen (both : g.Evaluates (.skipThen separator item) c s (.success v d) t) :
    ∃ e u, g.Evaluates item e u (.success v d) t := by
  obtain ⟨fuel, ran⟩ := both
  have ran := run_mono (Nat.le_add_right fuel 2) ran
  rw [run_skipThen] at ran
  obtain ⟨⟨first, u⟩, -, ran⟩ := bind_eq_ok.1 ran
  cases first with
  | failure message e found => cases ran
  | success w e => exact ⟨e, u, fuel, ran⟩

theorem Proceeds.skipThen (separators : g.Proceeds I separator) (items : g.Proceeds I item) :
    g.Proceeds I (.skipThen separator item) := by
  intro c s place
  obtain ⟨first, t, ran, moves⟩ := separators c s place
  cases first with
  | failure message d found => exact ⟨_, t, ran.pair_failure.adapt rfl, fun v d same => nomatch same⟩
  | success v d =>
      obtain ⟨follows, place'⟩ := moves v d rfl
      obtain ⟨o, u, ran', moves'⟩ := items d t place'
      refine ⟨o, u, (ran.pair ran').adapt ?_, ?_⟩
      · cases o with
        | success w e => rfl
        | failure message e found => rfl
      · rintro w e rfl
        obtain ⟨follows', place''⟩ := moves' w e rfl
        have text : d.text = c.text := follows.fits.text
        exact ⟨(text ▸ follows').mono follows.le, place''⟩

theorem Climbs.last (climbs : g.Climbs p c s vs d u) :
    d = c ∧ u = s ∨ ∃ e t v, g.Evaluates p e t (.success v d) u := by
  induction climbs with
  | done c s => exact .inl ⟨rfl, rfl⟩
  | @next c d e s t u v vs round further rest ih =>
      obtain ⟨rfl, rfl⟩ | last := ih
      · exact .inr ⟨c, s, v, round⟩
      · exact .inr last

theorem Proceeds.separates (items : g.Proceeds I item) (separators : g.Proceeds I separator) (place : I c s)
    {rest : List Char} (remains : c.remaining = .ok rest) (required : Bool) :
    ∃ o t, g.SeparatesWithin (Text.byteLength rest + 1) required item separator c s o t ∧
      ∀ v d, o = .success v d → (v = .list [] ∧ d = c) ∨ g.EndsAtItem item separator d t := by
  obtain ⟨first, u, began, moves⟩ := items c s place
  cases first with
  | failure message d found =>
      refine ⟨_, u, separatesWithin_of_failure began _ required, fun v e same => ?_⟩
      cases required with
      | true => cases same
      | false =>
          cases same
          exact .inl ⟨rfl, rfl⟩
  | success v d =>
      obtain ⟨follows, place'⟩ := moves v d rfl
      have le : c.index ≤ d.index := follows.le
      have inside : d.index ≤ c.length := follows.fits.index_le
      have length : d.length = c.length := congrArg Text.byteLength follows.fits.text
      have left := Cursor.index_add_remaining remains
      obtain ⟨vs, e, u', round, o, t, climbs, last, ending, few⟩ :=
        (separators.skipThen items).ends false place' (Nat.add_sub_of_le (length ▸ inside))
      refine ⟨_, t, climbs.separates began last ending (by omega) required, fun w e' same => ?_⟩
      cases ending with
      | refused first none => cases first
      | stuck still shown => cases same
      | @collected message found e'' enough =>
          cases same
          refine .inr ?_
          obtain ⟨rfl, rfl⟩ | ⟨e₁, u₁, w, ran⟩ := climbs.last
          · exact ⟨c, s, v, u', began, ⟨message, e'', found⟩, last⟩
          · obtain ⟨e₂, u₂, ran⟩ := ran.of_skipThen
            exact ⟨e₂, u₂, w, u', ran, ⟨message, e'', found⟩, last⟩

/-- A list of items is an item and as many rounds of a separator and an item as there are, unless it may be empty and
the first item fails. It returns, with no more rounds than bytes remain, and one, and never ends after a separator. -/
theorem sepBy_pairs_item_with_rounds (g : Grammar) (item separator : Expr) (I : Cursor → Session → Prop) (c : Cursor)
    (s : Session) (rest : List Char) (items : g.Proceeds I item) (separators : g.Proceeds I separator) (place : I c s)
    (remains : c.remaining = .ok rest) :
    (∀ o t, g.Evaluates (.sepBy true item separator) c s o t ↔ g.Evaluates (.listOf item separator) c s o t) ∧
    (∀ o t, g.Evaluates (.sepBy false item separator) c s o t ↔
      (∃ failure : Failure, g.Evaluates item c s failure.toOutcome t ∧ o = .success (.list []) c) ∨
      (∃ v d u, g.Evaluates item c s (.success v d) u) ∧ g.Evaluates (.listOf item separator) c s o t) ∧
    ∀ required, (∃ o t, g.SeparatesWithin (Text.byteLength rest + 1) required item separator c s o t ∧
        g.Evaluates (.sepBy required item separator) c s o t) ∧
      ∀ v d t, g.Evaluates (.sepBy required item separator) c s (.success v d) t →
        (v = .list [] ∧ d = c) ∨ g.EndsAtItem item separator d t := by
  refine ⟨fun o t => evaluates_sepBy_iff_listOf, fun o t => ?_, fun required => ?_⟩
  · rw [evaluates_sepBy_iff_required, evaluates_sepBy_iff_listOf]
  · obtain ⟨o, t, within, ends⟩ := items.separates separators place remains required
    refine ⟨⟨o, t, within, within.evaluates⟩, fun v d t' ran => ?_⟩
    obtain ⟨rfl, rfl⟩ := within.evaluates.unique ran
    exact ends v d rfl

theorem sepBy_pairs_item_with_rounds_before_separator :
    let digit : Expr := .prim .digit
    let comma : Expr := .prim (.char ',')
    let place (index : Nat) : Cursor := ⟨['1', ',', '2', ','], index, none⟩
    let list : Outcome := .success (.list [.char '1', .char '2']) (place 3)
    Grammar.Evaluates {} (.listOf digit comma) (place 0) {} list {} ∧
    Grammar.EndsAtItem {} digit comma (place 3) {} ∧
    Grammar.Evaluates {} comma (place 3) {} (.success (.char ',') (place 4)) {} := by
  intro digit comma place list
  have fits : (place 0).Fits ⟨(place 0).text, false, false⟩ := ⟨rfl, rfl, fun plain => absurd plain Bool.false_ne_true⟩
  obtain ⟨same, -, returns⟩ := sepBy_pairs_item_with_rounds {} digit comma _ (place 0) {} (place 0).text
    (proceeds_prim {} _ _) (proceeds_prim {} _ _) fits rfl
  have ran : Grammar.Evaluates {} (.sepBy true digit comma) (place 0) {} list {} := ⟨3, rfl⟩
  refine ⟨(same _ _).1 ran, ?_, 1, rfl⟩
  obtain ⟨empty, -⟩ | ends := (returns true).2 _ _ _ ran
  · cases empty
  · exact ends

end Grammar
end ParseEngine
