import ParseEngine.Proofs.Positions
import ParseEngine.Proofs.Progress
import ParseEngine.Proofs.Separation
import ParseEngine.Proofs.Triples

namespace ParseEngine

theorem Text.byteLength_le_of_stops {kind : Char → Bool} {before before' rest rest' : List Char}
    (all : ∀ ch ∈ before, kind ch = true) (stops : Numeral.Stops kind rest')
    (split : before' ++ rest' = before ++ rest) : byteLength before ≤ byteLength before' := by
  by_contra nearer
  obtain ⟨more, rfl, rfl⟩ := append_of_byteLength_le split (by omega)
  cases more with
  | nil => simp at nearer
  | cons ch more =>
      have one : kind ch = true := all ch (by simp)
      rw [stops ch _ rfl] at one
      cases one

namespace Cursor

def Clear (c : Cursor) : Prop :=
  ∃ rest, c.remaining = .ok rest ∧ Numeral.Stops Text.isBlank rest

structure FirstClear (c d : Cursor) : Prop where
  same : d = { c with index := d.index }
  le : c.index ≤ d.index
  clear : d.Clear
  first : ∀ i, c.index ≤ i → Clear { c with index := i } → d.index ≤ i

variable {c d d' : Cursor} {blanks rest : List Char}

theorem FirstClear.unique (first : c.FirstClear d) (second : c.FirstClear d') : d = d' := by
  have le : d.index ≤ d'.index := first.first _ second.le (second.same ▸ second.clear)
  have ge : d'.index ≤ d.index := second.first _ first.le (first.same ▸ first.clear)
  rw [first.same, second.same, Nat.le_antisymm le ge]

theorem past_firstClear (remains : c.remaining = .ok (blanks ++ rest)) (blank : Calculator.Blank blanks)
    (stops : Numeral.Stops Text.isBlank rest) : c.FirstClear (c.past blanks) := by
  obtain ⟨-, -, left⟩ := (fits_of_remaining remains).past remains
  refine ⟨rfl, Nat.le_add_right _ _, ⟨rest, left, stops⟩, ?_⟩
  rintro i le ⟨rest', remains', stops'⟩
  obtain ⟨before, split, size⟩ := split_of_remaining remains
  obtain ⟨before', split', rfl⟩ : ∃ before', c.text = before' ++ rest' ∧ Text.byteLength before' = i :=
    split_of_remaining remains'
  obtain ⟨taken, rfl, among⟩ := Text.append_of_byteLength_le (split.symm.trans split') (size ▸ le)
  have behind := Text.byteLength_le_of_stops blank stops' among.symm
  rw [Text.byteLength_append, size]
  exact Nat.add_le_add_left behind c.index

end Cursor

namespace Grammar
variable {g : Grammar} {p : Expr} {c d e : Cursor} {s t : Session} {v : Value} {blanks rest : List Char}

theorem whitespace_climbs (remains : c.remaining = .ok (blanks ++ rest)) (blank : Calculator.Blank blanks) :
    g.Climbs (.prim .whitespace) c s (blanks.map .char) (c.past blanks) s := by
  induction blanks generalizing c with
  | nil => exact .done c s
  | cons ch blanks ih =>
      have fits := Cursor.fits_of_remaining remains
      have one : Prim.whitespace.run c = .ok (.success (.char ch) (c.past [ch])) :=
        Calculator.one_success fits remains (blank ch (List.mem_cons_self ..))
      have remains' : c.remaining = .ok ([ch] ++ (blanks ++ rest)) := remains
      obtain ⟨-, -, left⟩ := fits.past remains'
      have more := ih left fun other member => blank other (List.mem_cons_of_mem ch member)
      rw [Cursor.past_append] at more
      exact .next (Evaluates.prim_iff.2 ⟨one, rfl⟩) (c.lt_past (List.cons_ne_nil ch [])) more

theorem whitespace_repeats (remains : c.remaining = .ok (blanks ++ rest)) (blank : Calculator.Blank blanks)
    (stops : Numeral.Stops Text.isBlank rest) :
    g.Evaluates (.many false (.prim .whitespace)) c s (.success (.list (blanks.map .char)) (c.past blanks)) s := by
  obtain ⟨-, -, left⟩ := (Cursor.fits_of_remaining remains).past remains
  obtain ⟨message, found, ends⟩ : ∃ message found,
      Prim.whitespace.run (c.past blanks) = .ok (.failure message (c.past blanks) found) :=
    Calculator.one_failure left stops
  exact (whitespace_climbs remains blank).evaluates (Evaluates.prim_iff.2 ⟨ends, rfl⟩) (.collected nofun)

theorem spaces_firstClear (remains : c.remaining = .ok rest) : ∃ d, c.FirstClear d ∧
    Prim.spaces.run c = .ok (.success .unit d) ∧ ∀ (g : Grammar) (s : Session),
      g.Evaluates (.mapTo .unit (.many false (.prim .whitespace))) c s (.success .unit d) s := by
  obtain ⟨blanks, rest, rfl, blank, stops⟩ := Calculator.split_blanks rest
  refine ⟨c.past blanks, Cursor.past_firstClear remains blank stops, ?_, fun g s => ?_⟩
  · exact Calculator.spaces_success (Cursor.fits_of_remaining remains) remains blank stops
  · exact (whitespace_repeats remains blank stops).adapt rfl

theorem run_skip (g : Grammar) (fuel : Nat) (a b : Expr) : g.run (fuel + 2) (.skip a b) =
    (g.run fuel a).andThen fun v => (g.run fuel b).mapValue fun _ => v := by
  change Runner.adapt (.map _) (Runner.pair (g.run fuel a) (g.run fuel b)) = _
  rw [Runner.adapt_map_pair]
  rfl

theorem Evaluates.lexeme (part : g.Evaluates p c s (.success v e) t)
    (blanks : Prim.spaces.run e = .ok (.success .unit d)) : g.Evaluates (.lexeme p) c s (.success v d) t :=
  (part.pair (Evaluates.prim_iff.2 ⟨blanks, rfl⟩)).adapt rfl

theorem Evaluates.of_lexeme (whole : g.Evaluates (.lexeme p) c s (.success v d) t) :
    ∃ e w, g.Evaluates p c s (.success v e) t ∧ Prim.spaces.run e = .ok (.success w d) := by
  obtain ⟨fuel, ran⟩ := whole
  have ran := run_mono (Nat.le_add_right fuel 2) ran
  rw [Expr.lexeme, run_skip] at ran
  obtain ⟨⟨first, u⟩, part, ran⟩ := bind_eq_ok.1 ran
  cases first with
  | failure message e found => cases ran
  | success w e =>
      obtain ⟨⟨o, u'⟩, ran', same⟩ := bind_eq_ok.1 ran
      obtain ⟨blanks, rfl⟩ := Evaluates.prim_iff.1 ⟨fuel, ran'⟩
      cases o with
      | failure message d' found => cases same
      | success w' d' =>
          cases same
          exact ⟨e, w', ⟨fuel, part⟩, blanks⟩

/-- Skipping blanks is repeating them. A parser that skips the blanks behind it succeeds where it does without them,
given that it ends between two characters, as it always does in a session of the text. -/
theorem spaces_repeat_whitespace (g : Grammar) (c : Cursor) (s : Session) (rest : List Char)
    (remains : c.remaining = .ok rest) :
    (∃ d, c.FirstClear d ∧ g.Evaluates (.prim .spaces) c s (.success .unit d) s ∧
      g.Evaluates (.mapTo .unit (.many false (.prim .whitespace))) c s (.success .unit d) s) ∧
    (∀ p v e t, g.Evaluates p c s (.success v e) t → (∃ after, e.remaining = .ok after) →
      ∃ d, e.FirstClear d ∧ g.Evaluates (.lexeme p) c s (.success v d) t) ∧
    (∀ p v d t, g.Evaluates (.lexeme p) c s (.success v d) t →
      ∃ e, e.FirstClear d ∧ g.Evaluates p c s (.success v e) t) ∧
    (g.Reachable ⟨c.text, false, false⟩ s → ∀ p v e t, g.Evaluates p c s (.success v e) t →
      ∃ d, e.FirstClear d ∧ g.Evaluates (.lexeme p) c s (.success v d) t) := by
  have follow (p : Expr) (v : Value) (e : Cursor) (t : Session) (part : g.Evaluates p c s (.success v e) t)
      (place : ∃ after, e.remaining = .ok after) :
      ∃ d, e.FirstClear d ∧ g.Evaluates (.lexeme p) c s (.success v d) t := by
    obtain ⟨after, left⟩ := place
    obtain ⟨d, clear, ran, -⟩ := spaces_firstClear left
    exact ⟨d, clear, part.lexeme ran⟩
  refine ⟨?_, follow, fun p v d t whole => ?_, fun reachable p v e t part => follow p v e t part ?_⟩
  · obtain ⟨d, clear, ran, repeats⟩ := spaces_firstClear remains
    exact ⟨d, clear, Evaluates.prim_iff.2 ⟨ran, rfl⟩, repeats g s⟩
  · obtain ⟨e, w, part, blanks⟩ := whole.of_lexeme
    obtain ⟨after, left, -⟩ := bind_eq_ok.1 blanks
    obtain ⟨d', clear, ran, -⟩ := spaces_firstClear left
    cases blanks.symm.trans ran
    exact ⟨e, clear, part⟩
  · obtain ⟨fuel, ran⟩ := part
    have fits := Cursor.fits_of_remaining remains
    have safely := run_advances fuel p (fun closed => absurd closed Bool.false_ne_true) fits reachable.sound
    obtain ⟨-, after, left, -⟩ := (safely.result ran).follows.fits.remaining
    exact ⟨after, left⟩

theorem spaces_repeat_whitespace_of_all_widths :
    let place (index : Nat) : Cursor := ⟨['x', ' ', '\u00a0', '\u2003', 'y'], index, none⟩
    (place 1).FirstClear (place 7) ∧
    Grammar.Evaluates {} (.mapTo .unit (.many false (.prim .whitespace))) (place 1) {} (.success .unit (place 7)) {} ∧
    Grammar.Evaluates {} (.lexeme (.prim .anyChar)) (place 0) {} (.success (.char 'x') (place 7)) {} := by
  intro place
  have skipped : Grammar.Evaluates {} (.prim .spaces) (place 1) {} (.success .unit (place 7)) {} := ⟨1, rfl⟩
  have letter : Grammar.Evaluates {} (.prim .anyChar) (place 0) {} (.success (.char 'x') (place 1)) {} := ⟨1, rfl⟩
  obtain ⟨⟨d, clear, skips, repeats⟩, -⟩ := spaces_repeat_whitespace {} (place 1) {} _ rfl
  obtain ⟨-, follow, -⟩ := spaces_repeat_whitespace {} (place 0) {} _ rfl
  obtain ⟨d', clear', whole⟩ := follow _ _ _ _ letter ⟨_, rfl⟩
  cases (skips.unique skipped).1
  cases clear.unique clear'
  exact ⟨clear, repeats, whole⟩

end Grammar
end ParseEngine
