import Mathlib.Data.List.DropRight
import ParseEngine.Engine
import ParseEngine.Proofs.Contract
import ParseEngine.Proofs.Progress

namespace ParseEngine

def Text.Place (text : List Char) (index line column : Nat) (rest : List Char) : Prop :=
  ∃ lines last, text = lines ++ last ++ rest ∧ Text.byteLength (lines ++ last) = index ∧
    (∀ filled : lines ≠ [], lines.getLast filled = '\n') ∧ '\n' ∉ last ∧
    line = lines.count '\n' + 1 ∧ column = last.length + 1

theorem Text.takeBytes_append (before rest : List Char) :
    Text.takeBytes (Text.byteLength before) (before ++ rest) = before := by
  induction before with
  | nil =>
      cases rest with
      | nil => rfl
      | cons a rest => simp [Text.takeBytes, Nat.ne_of_gt a.utf8Size_pos]
  | cons a before ih => simp [Text.takeBytes, ih]

theorem lineColumn_place (before rest : List Char) :
    Text.Place (before ++ rest) (Text.byteLength before) (lineColumn (before ++ rest) (Text.byteLength before)).1
      (lineColumn (before ++ rest) (Text.byteLength before)).2 rest := by
  have parts : before.rdropWhile (· != '\n') ++ before.rtakeWhile (· != '\n') = before :=
    List.rdropWhile_append_rtakeWhile
  have unbroken : '\n' ∉ before.rtakeWhile (· != '\n') := fun member => by
    simpa using List.mem_rtakeWhile_imp member
  refine ⟨before.rdropWhile (· != '\n'), before.rtakeWhile (· != '\n'), ?_, ?_, fun filled => ?_, unbroken, ?_, ?_⟩
  · rw [parts]
  · rw [parts]
  · simpa using List.rdropWhile_last_not _ _ filled
  · rw [lineColumn, Text.takeBytes_append]
    have counted := congrArg (List.count '\n') parts
    rw [List.count_append, List.count_eq_zero.2 unbroken] at counted
    exact congrArg (· + 1) counted.symm
  · rw [lineColumn, Text.takeBytes_append]
    simp [List.rtakeWhile]

def Diagnostic.Marks (d : Diagnostic) (index : Nat) (text rest : List Char) : Prop :=
  ∃ label length, d.index? = some index ∧ d.markers? = some [⟨label, index, length⟩] ∧
    (length = 0 ↔ index = Text.byteLength text) ∧ (∀ a after, rest = a :: after → length = a.utf8Size) ∧
    index + length ≤ Text.byteLength text

theorem Excerpt.around_length (before rest : List Char) :
    let length := (around (before ++ rest) (Text.byteLength before)).length
    (length = 0 ↔ Text.byteLength before = Text.byteLength (before ++ rest)) ∧
      (∀ a after, rest = a :: after → length = a.utf8Size) ∧
      Text.byteLength before + length ≤ Text.byteLength (before ++ rest) := by
  intro length
  cases rest with
  | nil =>
      have size : length = 0 := by
        simp only [length, around, Text.dropBytes?_append]
      simp [size]
  | cons a after =>
      have size : length = a.utf8Size := by simp [length, around, Text.dropBytes?_append]
      have pos := a.utf8Size_pos
      simp only [size, Text.byteLength_append, Text.byteLength_cons, List.cons.injEq]
      refine ⟨by omega, ?_, by omega⟩
      rintro _ _ ⟨rfl, -⟩
      rfl

section Conclude
variable {st : Setting} {options : Options} {o : Outcome}

theorem conclude_success {d : Cursor} (fits : d.Fits st) (w : Value) : conclude st.text options (.success w d) =
    if options.consumeAll = true ∧ d.index < Text.byteLength st.text then .error (.stoppedAt st.text d.index)
    else .ok (w, d) := by
  rw [conclude, Cursor.isAtEnd, Cursor.length, fits.text]
  simp

theorem conclude_eq_ok_iff (fits : o.cursor.Fits st) (v : Value) (c : Cursor) :
    conclude st.text options o = .ok (v, c) ↔
      o = .success v c ∧ (options.consumeAll = false ∨ c.index = Text.byteLength st.text) := by
  cases o with
  | failure message d found => simp [conclude]
  | success w d =>
      have le : d.index ≤ Text.byteLength st.text := Cursor.Fits.index_le fits
      rw [conclude_success (d := d) fits]
      split
      · rename_i left
        simp only [reduceCtorEq, Outcome.success.injEq, false_iff]
        rintro ⟨⟨rfl, rfl⟩, all | ended⟩
        · simp [all] at left
        · omega
      · rename_i used
        simp only [Except.ok.injEq, Prod.mk.injEq, Outcome.success.injEq, iff_self_and]
        rintro ⟨rfl, rfl⟩
        cases all : options.consumeAll with
        | false => exact .inl rfl
        | true => exact .inr (Nat.le_antisymm le (Nat.le_of_not_lt fun short => used ⟨all, short⟩))

theorem conclude_eq_incomplete_iff (fits : o.cursor.Fits st) (index : Nat) :
    (∃ excerpt, conclude st.text options o = .error (.incomplete index excerpt)) ↔
      ∃ v c, o = .success v c ∧ c.index = index ∧ options.consumeAll = true ∧ index < Text.byteLength st.text := by
  cases o with
  | failure message d found => simp [conclude, Diagnostic.parseFailure]
  | success w d =>
      rw [conclude_success (d := d) fits]
      constructor
      · rintro ⟨excerpt, failed⟩
        split at failed
        · rename_i left
          cases failed
          exact ⟨w, d, rfl, rfl, left⟩
        · cases failed
      · rintro ⟨v, c, same, rfl, left⟩
        cases same
        exact ⟨_, by rw [if_pos left, Diagnostic.stoppedAt]⟩

end Conclude

theorem conclude_marks {text before rest : List Char} {o : Outcome} {options : Options} {d : Diagnostic}
    (split : text = before ++ rest) (size : Text.byteLength before = o.index)
    (failed : conclude text options o = .error d) : d.Marks o.index text rest := by
  subst split
  have length := Excerpt.around_length before rest
  rw [size] at length
  cases o with
  | success v c =>
      simp only [conclude] at failed
      split at failed
      · cases failed
        exact ⟨_, _, rfl, rfl, length⟩
      · cases failed
  | failure message c found =>
      cases failed
      exact ⟨_, _, rfl, rfl, length⟩

def Outcome.Points : Outcome → Prop
  | .success .. => True
  | .failure _ c found => c.preview = .ok found

theorem Prim.Ends.points {p : Prim} {c : Cursor} {o : Outcome} (ends : p.Ends c o)
    (untold : ∀ count message description found, p ≠ .failAfter count message description (some found)) :
    o.Points := by
  cases ends with
  | success v context => trivial
  | failure message context shown => exact shown
  | told context same => exact absurd same (untold _ _ _ _)

namespace Grammar

/-- No parser says itself what it found. -/
def Untold (g : Grammar) (e : Expr) : Prop :=
  ∀ count message description found, ¬g.Uses e (.prim (.failAfter count message description (some found)))

def pointing (g : Grammar) : Contract where
  allowed _ := g.Untold
  place _ _ := True
  gives _ := Outcome.Points
  ready s := (∀ key o, s.memo.lookup key = some (.outcome o) → o.Points) ∧
    ∀ key growth, (key, growth) ∈ s.growing → growth.seed.Points

theorem pointing_lawful (g : Grammar) : g.pointing.Lawful g where
  part untold _ part := fun count message description found uses =>
    untold count message description found (.part part uses)
  detached untold := fun count message description found uses =>
    untold count message description found (.part .detached uses)
  body untold known := fun count message description found uses =>
    untold count message description found (.body known uses)
  success := Iff.rfl
  failed _ shown := shown
  reworded _ points := points
  rebuilt _ shown := shown
  prim untold _ ran :=
    (Prim.run_ends ran).points fun count message description found same =>
      untold count message description found (same ▸ .self _)
  pattern _ _ ran := (Prim.run_ends ran).points fun _ _ _ _ => Prim.noConfusion
  dropped _ := trivial
  restored {b c o} _ points := by cases o <;> exact points
  fresh journal := ⟨(fun _ _ known => nomatch known), fun _ _ member => nomatch member⟩
  tables ready memo growing := ⟨memo ▸ ready.1, growing ▸ ready.2⟩
  hit _ _ ready known read := ready.1 _ _ (Entry.eq_of_outcome? read ▸ known)
  seed _ _ ready inFlight := ready.2 _ _ (Session.mem_of_lookup inFlight)
  begins _ _ _ _ ready _ _ points := by
    refine ⟨ready.1, fun key growth member => ?_⟩
    rcases List.mem_cons.1 member with same | member
    · cases same
      exact points
    · exact ready.2 key growth member
  grows {b r c t growth base seed} _ _ ready top idle points := by
    refine ⟨ready.1, fun key growth member => ?_⟩
    rcases Session.mem_grow top idle member with same | member
    · cases same
      exact points
    · exact ready.2 key growth member
  finishes ready before top idle := ⟨ready.1, Session.finish_growing top idle ▸ before.2⟩
  remembers _ _ _ ready _ points := by
    refine ⟨fun key o known => ?_, ?_⟩
    · rw [Session.lookup_remember] at known
      split at known
      · cases known
        exact points
      · exact ready.1 key o known
    · rw [Session.remember_growing]
      exact ready.2
  planted {b name label v asByte p c s} _ _ ready := by
    refine ⟨fun key o known => ?_, ?_⟩
    · rw [Session.lookup_remember] at known
      split at known
      · cases asByte <;> cases known
        trivial
      · exact ready.1 key o known
    · rw [Session.remember_growing]
      exact ready.2

/-- What a whole parse reports when the run of its root returns. The result is a value, an error about the text left
over, or an error about a failure, which tells the line, the column and the text at the index of the failure. Every
error marks the place where the run ended. -/
theorem parseWith_reports_place (g : Grammar) (root : Parser) (text : List Char) (options : Options) (fuel : Nat)
    (o : Outcome) (t : Session) (untold : g.Untold root.expr)
    (ran : g.run fuel root.expr (.start text none) (.fresh options {}) = .ok (o, t)) :
    ∃ result u line column rest, g.parseWith fuel root text options = .ok (result, u) ∧
      Text.Place text o.index line column rest ∧
      (∀ v c, result = .ok (v, c) ↔
        o = .success v c ∧ (options.consumeAll = false ∨ c.index = Text.byteLength text)) ∧
      (∀ index, (∃ excerpt, result = .error (.incomplete index excerpt)) ↔
        ∃ v c, o = .success v c ∧ c.index = index ∧ options.consumeAll = true ∧ index < Text.byteLength text) ∧
      (∀ message c found, o = .failure message c found → found = Cursor.previewOf rest ∧
        ∃ excerpt, result = .error (.parse message line column c.index found excerpt)) ∧
      ∀ d, result = .error d → d.Marks o.index text rest := by
  let st : Setting := ⟨text, false, false⟩
  have start : (Cursor.start text none).Fits st := ⟨rfl, by cases text <;> rfl, fun _ => rfl⟩
  have sound : (Session.fresh options {}).Sound g st := .fresh options {}
  have safely := run_advances fuel root.expr (fun closed => absurd closed Bool.false_ne_true) start sound
  have fits := (safely.result ran).follows.fits
  obtain ⟨before, rest, remains, split, size⟩ := fits.remaining
  have lawful := g.pointing_lawful
  have ready : g.pointing.ready (.fresh options {}) := lawful.tables (lawful.fresh {}) rfl rfl
  have points : o.Points := (lawful.ran (b := false) untold trivial ready ran).gives
  have place := lineColumn_place before rest
  rw [← show text = before ++ rest from split, size] at place
  refine ⟨conclude text options o, _, _, _, rest, by rw [parseWith, ran]; rfl, place, conclude_eq_ok_iff fits,
    conclude_eq_incomplete_iff fits, ?_, fun d => conclude_marks split size⟩
  rintro message c found rfl
  have shown : c.preview = .ok (Cursor.previewOf rest) := by
    rw [Cursor.preview, show c.remaining = .ok rest from remains]
    rfl
  exact ⟨Except.ok.inj (Eq.trans (Eq.symm points) shown), _, rfl⟩

theorem parseWith_reports_place_after_wide_character :
    let g : Grammar := { rules := [
      ⟨.leftRecursive, "lines", .orElse (.pair (.rule 0) (.rule 1)) (.rule 1)⟩,
      ⟨.memo, "line", .pair (.prim .letter) (.prim (.char '\n'))⟩] }
    let root : Parser := ⟨.plain 0, .pair (.rule 0) (.rule 1)⟩
    let text := "é\né€".toList
    ∃ message found line column rest excerpt u, Text.Place text 5 line column rest ∧ found = Cursor.previewOf rest ∧
      g.parseWith 9 root text {} = .ok (.error (.parse message line column 5 found excerpt), u) ∧
      Diagnostic.Marks (.parse message line column 5 found excerpt) 5 text rest := by
  intro g root text
  let S (e : Expr) : Prop := e = .pair (.rule 0) (.rule 1) ∨ e = .rule 0 ∨ e = .rule 1 ∨
    e = .orElse (.pair (.rule 0) (.rule 1)) (.rule 1) ∨ e = .pair (.prim .letter) (.prim (.char '\n')) ∨
    e = .prim .letter ∨ e = .prim (.char '\n')
  have parts (p e : Expr) (part : p.Part e) (holds : S e) : S p := by
    rcases holds with rfl | rfl | rfl | rfl | rfl | rfl | rfl <;> cases part <;> simp [S]
  have bodies (r : Nat) (rule : Rule) (found : g.rules[r]? = some rule) : S rule.body := by
    rcases r with _ | _ | r <;> cases found <;> simp [S]
  have untold : g.Untold root.expr := fun count message description found uses => by
    have holds := uses.closed parts bodies (.inl rfl)
    simp [S, Prim.letter, Prim.satisfy, Prim.char] at holds
  have ends : (g.run 9 root.expr (.start text none) (.fresh {} {})).toOption.map
      (fun r => (r.1.isSuccess, r.1.index)) = some (false, 5) := by decide +kernel
  cases ran : g.run 9 root.expr (.start text none) (.fresh {} {}) with
  | error halt => simp [ran, Except.toOption] at ends
  | ok r =>
      obtain ⟨o, t⟩ := r
      simp only [ran, Except.toOption, Option.map_some, Option.some.injEq, Prod.mk.injEq] at ends
      obtain ⟨result, u, line, column, rest, parsed, place, -, -, failed, marks⟩ :=
        parseWith_reports_place g root text {} 9 o t untold ran
      cases o with
      | success v c => cases ends.1
      | failure message c found =>
          have index : c.index = 5 := ends.2
          obtain ⟨shown, excerpt, rfl⟩ := failed message c found rfl
          have marked := marks _ rfl
          rw [ends.2] at place marked
          rw [index] at parsed marked
          exact ⟨message, found, line, column, rest, excerpt, u, place, shown, parsed, marked⟩

end Grammar
end ParseEngine
