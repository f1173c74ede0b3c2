import ParseEngine.Prim
import ParseEngine.Runner.Adapter

namespace ParseEngine

section Except
variable {ε α β : Type} {x : Except ε α} {f : α → Except ε β} {b : β}

@[simp] theorem ok_bind (a : α) (f : α → Except ε β) : (Except.ok a >>= f) = f a := rfl

@[simp] theorem error_bind (e : ε) (f : α → Except ε β) : (Except.error e >>= f) = .error e := rfl

theorem bind_eq_ok : (x >>= f) = .ok b ↔ ∃ a, x = .ok a ∧ f a = .ok b := by
  cases x with
  | error e => simp
  | ok a => simp

theorem eq_ok_of_isOk (given : x.isOk) : ∃ a, x = .ok a := by
  cases x with
  | error e => cases given
  | ok a => exact ⟨a, rfl⟩

theorem eq_ok_of_toOption {f : α → β} (given : x.toOption.map f = some b) : ∃ a, x = .ok a ∧ f a = b := by
  cases x with
  | error e => cases given
  | ok a => exact ⟨a, rfl, Option.some.inj given⟩

end Except

/-- A text, whether the cursors into it are plain, that is, carry no context, and whether it is parsed
without interceptors. -/
structure Setting where
  text : List Char
  plain : Bool
  closed : Bool

structure Cursor.Fits (st : Setting) (c : Cursor) : Prop where
  text : c.text = st.text
  boundary : (Text.dropBytes? c.index st.text).isSome
  context : st.plain → c.context = none

structure Outcome.Follows (st : Setting) (start : Nat) (o : Outcome) : Prop where
  fits : o.cursor.Fits st
  le : start ≤ o.index

variable {st : Setting} {c d : Cursor} {o : Outcome} {start : Nat}

theorem Text.takeBytes_leads (n : Nat) (text : List Char) : Text.takeBytes n text <+: text := by
  induction text generalizing n with
  | nil => exact List.prefix_rfl
  | cons c rest ih =>
      rw [Text.takeBytes]
      split
      · exact (List.prefix_cons_inj c).2 (ih _)
      · exact List.nil_prefix

theorem Cursor.settled_boundary (text : List Char) (index : Nat) (context : Option Value) :
    (Text.dropBytes? (Cursor.settled text index context).index text).isSome := by
  obtain ⟨rest, split⟩ := Text.takeBytes_leads index text
  have dropped := Text.dropBytes?_append (Text.takeBytes index text) rest
  rw [split] at dropped
  exact Option.isSome_iff_exists.2 ⟨rest, dropped⟩

theorem Cursor.remaining_eq_ok_iff {rest : List Char} :
    c.remaining = .ok rest ↔ Text.dropBytes? c.index c.text = some rest := by
  unfold Cursor.remaining
  cases Text.dropBytes? c.index c.text with
  | none => simp
  | some rest' => simp

theorem Cursor.split_of_remaining {rest : List Char} (remains : c.remaining = .ok rest) :
    ∃ before, c.text = before ++ rest ∧ Text.byteLength before = c.index :=
  Text.dropBytes?_eq_some (Cursor.remaining_eq_ok_iff.1 remains)

theorem Cursor.index_add_remaining {rest : List Char} (remains : c.remaining = .ok rest) :
    c.index + Text.byteLength rest = c.length := by
  obtain ⟨before, split, size⟩ := Cursor.split_of_remaining remains
  rw [Cursor.length, split, Text.byteLength_append, size]

theorem Cursor.fits_of_remaining {rest : List Char} (remains : c.remaining = .ok rest) :
    c.Fits ⟨c.text, false, false⟩ := by
  refine ⟨rfl, ?_, fun plain => nomatch plain⟩
  exact Option.isSome_iff_exists.2 ⟨rest, Cursor.remaining_eq_ok_iff.1 remains⟩

namespace Cursor.Fits

theorem remaining (fits : c.Fits st) :
    ∃ before rest, c.remaining = .ok rest ∧ st.text = before ++ rest ∧ Text.byteLength before = c.index := by
  obtain ⟨rest, dropped⟩ := Option.isSome_iff_exists.1 fits.boundary
  obtain ⟨before, split, size⟩ := Text.dropBytes?_eq_some dropped
  exact ⟨before, rest, by rw [Cursor.remaining, fits.text, dropped], split, size⟩

theorem index_le (fits : c.Fits st) : c.index ≤ Text.byteLength st.text := by
  obtain ⟨before, rest, -, split, size⟩ := fits.remaining
  rw [split, Text.byteLength_append]
  omega

theorem advance (fits : c.Fits st) {rest taken : List Char} (remains : c.remaining = .ok rest)
    (consumed : taken <+: rest) :
    ∃ d, c.advance (Text.byteLength taken) = .ok d ∧ d.Fits st ∧ c.index ≤ d.index := by
  obtain ⟨before, rest', remains', split, size⟩ := fits.remaining
  rw [remains] at remains'
  cases remains'
  obtain ⟨after, rfl⟩ := consumed
  have total : Text.byteLength st.text = c.index + Text.byteLength taken + Text.byteLength after := by
    simp only [split, Text.byteLength_append, size]
    omega
  refine ⟨{ c with index := c.index + Text.byteLength taken }, ?_, ⟨fits.text, ?_, fits.context⟩, ?_⟩
  · rw [Cursor.advance, Cursor.moveTo, Cursor.length, fits.text, if_pos (by omega)]
  · have dropped := Text.dropBytes?_append (before ++ taken) after
    rw [Text.byteLength_append, size, List.append_assoc, ← split] at dropped
    simp [dropped]
  · exact Nat.le_add_right _ _

theorem withContext (fits : c.Fits st) (v : Value) : (c.withContext v).Fits st := by
  refine ⟨fits.text, fits.boundary, fun plain => ?_⟩
  simp [Cursor.withContext, fits.context plain]

theorem dropContext (fits : c.Fits st) : ({ c with context := none } : Cursor).Fits st :=
  ⟨fits.text, fits.boundary, fun _ => rfl⟩

theorem restoreContext (fits : c.Fits st) (other : d.Fits st) :
    ({ d with context := c.context } : Cursor).Fits st :=
  ⟨other.text, other.boundary, fits.context⟩

theorem eq_of_index (plain : st.plain) (fits : c.Fits st) (other : d.Fits st) (same : c.index = d.index) :
    c = d := by
  have text := fits.text.trans other.text.symm
  have context := (fits.context plain).trans (other.context plain).symm
  cases c
  cases d
  simp_all

end Cursor.Fits

namespace Outcome

theorem Follows.mono {start' : Nat} (follows : o.Follows st start) (le : start' ≤ start) :
    o.Follows st start' :=
  ⟨follows.fits, Nat.le_trans le follows.le⟩

theorem Follows.map (follows : o.Follows st start) (f : Value → Value) : (o.map f).Follows st start := by
  refine ⟨?_, ?_⟩
  · rw [cursor_map]
    exact follows.fits
  · rw [index, cursor_map]
    exact follows.le

theorem failAt_eq_ok {message : String} (failed : failAt message c = .ok o) :
    ∃ found, c.preview = .ok found ∧ o = .failure message c found := by
  obtain ⟨found, shown, same⟩ := bind_eq_ok.1 failed
  exact ⟨found, shown, (Except.ok.inj same).symm⟩

theorem failAt_of_remaining {rest : List Char} (remains : c.remaining = .ok rest) (message : String) :
    failAt message c = .ok (.failure message c (Cursor.previewOf rest)) := by
  rw [failAt, Cursor.preview, remains]
  rfl

theorem failAt_follows (message : String) (fits : c.Fits st) :
    ∃ o, failAt message c = .ok o ∧ o.Follows st c.index := by
  obtain ⟨before, rest, remains, -, -⟩ := fits.remaining
  exact ⟨_, failAt_of_remaining remains message, fits, Nat.le_refl _⟩

end Outcome

theorem Runner.failHere_eq_ok {message : String} {s t : Session} (failed : Runner.failHere message c s = .ok (o, t)) :
    ∃ found, c.preview = .ok found ∧ o = .failure message c found ∧ t = s := by
  obtain ⟨o', failed, same⟩ := bind_eq_ok.1 failed
  obtain ⟨found, shown, rfl⟩ := Outcome.failAt_eq_ok failed
  cases same
  exact ⟨found, shown, rfl, rfl⟩

namespace Numeral

theorem sign_leads (text : List Char) : sign text <+: text := by
  unfold sign
  split
  · exact ⟨_, rfl⟩
  · exact ⟨_, rfl⟩
  · exact List.nil_prefix

theorem leads_append {first second text : List Char} (leads : first <+: text)
    (goesOn : second <+: text.drop first.length) : first ++ second <+: text := by
  obtain ⟨rest, rfl⟩ := leads
  rw [List.drop_left] at goesOn
  obtain ⟨last, rfl⟩ := goesOn
  exact ⟨last, by rw [List.append_assoc]⟩

theorem integer?_leads {text taken : List Char} {n : Int} (read : integer? text = some (taken, n)) :
    taken <+: text := by
  unfold integer? at read
  dsimp only at read
  split at read
  · cases read
  · cases read
    exact leads_append (sign_leads text) (List.takeWhile_prefix _)

theorem mantissa?_leads {text taken whole fraction : List Char}
    (read : mantissa? text = some (taken, whole, fraction)) : taken <+: text := by
  unfold mantissa? at read
  dsimp only at read
  have leads : digits text <+: text := List.takeWhile_prefix _
  split at read
  · rename_i rest point
    split at read
    · cases read
    · cases read
      refine leads_append leads ?_
      rw [point]
      exact List.cons_prefix_cons.2 ⟨rfl, List.takeWhile_prefix _⟩
  · split at read
    · cases read
    · cases read
      exact leads

theorem exponent_leads (text : List Char) : (exponent text).1 <+: text := by
  unfold exponent
  split
  · split
    · split
      · rename_i taken n read
        exact List.cons_prefix_cons.2 ⟨rfl, integer?_leads read⟩
      · exact List.nil_prefix
    · exact List.nil_prefix
  · exact List.nil_prefix

theorem number?_leads {text taken : List Char} {x : Float} (read : number? text = some (taken, x)) :
    taken <+: text := by
  unfold number? at read
  obtain ⟨⟨digits, whole, fraction⟩, mantissa, rest⟩ := Option.bind_eq_some_iff.1 read
  cases rest
  refine leads_append (leads_append (sign_leads text) (mantissa?_leads mantissa)) ?_
  rw [List.length_append, ← List.drop_drop]
  exact exponent_leads _

end Numeral

namespace Prim

theorem commonPart_leads (first second : List Char) : commonPart first second <+: first := by
  fun_induction commonPart first second with
  | case1 a as bs ih => exact List.cons_prefix_cons.2 ⟨rfl, ih⟩
  | case2 => exact List.nil_prefix
  | case3 => exact List.nil_prefix

theorem run_follows (p : Prim) (fits : c.Fits st) : ∃ o, p.run c = .ok o ∧ o.Follows st c.index := by
  obtain ⟨before, rest, remains, -, -⟩ := fits.remaining
  have stay (v : Value) : (Outcome.success v c).Follows st c.index := ⟨fits, Nat.le_refl _⟩
  have miss (description : String) : ∃ o, expected description c = .ok o ∧ o.Follows st c.index :=
    Outcome.failAt_follows _ fits
  -- a success after the text that was consumed
  have consume (v : Value) {taken : List Char} (consumed : taken <+: rest) :
      ∃ o, (do return Outcome.success v (← c.advance (Text.byteLength taken)) : Except Halt Outcome) = .ok o ∧
        o.Follows st c.index := by
    obtain ⟨d, moved, dFits, le⟩ := fits.advance remains consumed
    exact ⟨.success v d, by rw [moved]; rfl, dFits, le⟩
  cases p with
  | literal text =>
      simp only [run, runLiteral, remains, ok_bind]
      split
      · rename_i leads
        exact consume _ (List.isPrefixOf_iff_prefix.1 leads)
      · obtain ⟨d, moved, dFits, le⟩ := fits.advance remains (commonPart_leads rest text.toList)
        obtain ⟨o, failed, follows⟩ := Outcome.failAt_follows ("Expected " ++ Text.quoteString text) dFits
        exact ⟨o, by rw [moved]; exact failed, follows.mono le⟩
  | one kind description test =>
      simp only [run, runOne, remains, ok_bind]
      split
      · rename_i d tail
        split
        · simpa using consume (.char d) (show [d] <+: d :: tail from ⟨tail, rfl⟩)
        · exact miss _
      · exact miss _
  | spaces =>
      simp only [run, runSpaces, remains, ok_bind]
      exact consume _ (List.takeWhile_prefix _)
  | pattern p =>
      simp only [run, runPattern, remains, ok_bind]
      split
      · rename_i skipped matched found
        exact consume _ (p.leads found)
      · exact miss _
  | integer =>
      simp only [run, runInteger, remains, ok_bind]
      split
      · rename_i taken n read
        split
        · exact consume _ (Numeral.integer?_leads read)
        · exact Outcome.failAt_follows _ fits
      · exact miss _
  | number =>
      simp only [run, runNumber, remains, ok_bind]
      split
      · rename_i taken x read
        exact consume _ (Numeral.number?_leads read)
      · exact miss _
  | succeed v => exact ⟨_, rfl, stay v⟩
  | fail message => exact Outcome.failAt_follows _ fits
  | endOfInput =>
      simp only [run]
      split
      · exact ⟨_, rfl, stay .unit⟩
      · exact miss _
  | position => exact ⟨_, rfl, stay _⟩
  | readContext => exact ⟨_, rfl, stay _⟩
  | updateContext f => exact ⟨_, rfl, fits.withContext _, Nat.le_refl _⟩
  | failAfter count message description found =>
      simp only [run, runFailAfter, remains, ok_bind]
      obtain ⟨d, moved, dFits, le⟩ := fits.advance remains (List.take_prefix count rest)
      simp only [moved, ok_bind]
      split
      · exact ⟨_, rfl, dFits, le⟩
      · obtain ⟨o, failed, follows⟩ := Outcome.failAt_follows message dFits
        exact ⟨o, failed, follows.mono le⟩
  | orphan => exact Outcome.failAt_follows _ fits

end Prim

theorem Adapter.apply_follows (adapter : Adapter) (fits : c.Fits st) (follows : o.Follows st c.index) :
    ∃ o', adapter.apply c o = .ok o' ∧ o'.Follows st c.index := by
  have stay (v : Value) : (Outcome.success v c).Follows st c.index := ⟨fits, Nat.le_refl _⟩
  cases adapter with
  | map f => exact ⟨_, rfl, follows.map f⟩
  | filter test message =>
      cases o with
      | success v d =>
          simp only [apply]
          split
          · exact ⟨_, rfl, follows⟩
          · exact Outcome.failAt_follows _ fits
      | failure => exact ⟨_, rfl, follows⟩
  | label message => cases o <;> exact ⟨_, rfl, follows.fits, follows.le⟩
  | tag name => cases o <;> exact ⟨_, rfl, follows.fits, follows.le⟩
  | lookahead =>
      cases o with
      | success v d => exact ⟨_, rfl, stay v⟩
      | failure => exact ⟨_, rfl, follows⟩
  | attempt =>
      cases o with
      | success v d => exact ⟨_, rfl, follows⟩
      | failure => exact Outcome.failAt_follows _ fits
  | optional =>
      cases o with
      | success v d => exact ⟨_, rfl, follows.fits, follows.le⟩
      | failure => exact ⟨_, rfl, stay _⟩
  | «unless» what =>
      cases o with
      | success v d => exact Outcome.failAt_follows _ fits
      | failure => exact ⟨_, rfl, stay _⟩
  | describe description => exact ⟨_, rfl, follows⟩
  | forward => exact ⟨_, rfl, follows⟩

end ParseEngine
