import ParseEngine.Proofs.Alternatives
import ParseEngine.Proofs.Fuel
import ParseEngine.Proofs.Positions
import ParseEngine.Proofs.Triples

/-!
Literals, and the place where a text parts from them.

A literal is found by comparing bytes, but its failure is reported between two characters. The two agree: no character
begins with the bytes of another one, so a text begins with the bytes of a literal if and only if it begins with its
characters, although two different characters may have their first bytes in common. The failure lies behind the
characters that the two share, and an alternative is tried only where they share none.
-/

namespace ParseEngine

namespace Text

def Begins (first text : List Char) : Prop :=
  ∃ more : ByteArray, text.utf8Encode = first.utf8Encode ++ more

variable {a b : Char} {first text taken : List Char}

theorem not_begins_nil : ¬Begins (a :: first) [] := by
  rintro ⟨more, same⟩
  have size := congrArg ByteArray.size same
  rw [ByteArray.size_append, List.utf8Encode_nil, ByteArray.size_empty] at size
  have empty : (a :: first).utf8Encode = ByteArray.empty := ByteArray.size_eq_zero_iff.1 (by omega)
  cases List.utf8Encode_eq_empty.1 empty

theorem begins_cons : Begins (a :: first) (b :: text) ↔ a = b ∧ Begins first text := by
  constructor
  · rintro ⟨more, same⟩
    rw [List.utf8Encode_cons, List.utf8Encode_cons (c := a), ByteArray.append_assoc] at same
    -- from the bytes on either side the same character is read first
    have decoded := congrArg (·.utf8DecodeChar? 0) same
    simp only [List.utf8DecodeChar?_utf8Encode_singleton_append, Option.some.injEq] at decoded
    subst decoded
    exact ⟨rfl, more, (ByteArray.append_right_inj _).1 same⟩
  · rintro ⟨rfl, more, same⟩
    refine ⟨more, ?_⟩
    rw [List.utf8Encode_cons, List.utf8Encode_cons (l := first), same, ByteArray.append_assoc]

theorem begins_iff : Begins first text ↔ first <+: text := by
  induction first generalizing text with
  | nil => exact ⟨fun _ => List.nil_prefix, fun _ => ⟨text.utf8Encode, by simp⟩⟩
  | cons a first ih =>
      cases text with
      | nil => simp [not_begins_nil]
      | cons b text => rw [begins_cons, List.cons_prefix_cons, ih]

theorem byteLength_lt_of_leads (leads : taken <+: text) (other : taken ≠ text) :
    byteLength taken < byteLength text := by
  obtain ⟨more, rfl⟩ := leads
  have filled : more ≠ [] := by
    rintro rfl
    simp at other
  have pos := byteLength_pos filled
  rw [byteLength_append]
  omega

end Text

theorem Cursor.index_past_eq_iff (c : Cursor) (taken : List Char) : (c.past taken).index = c.index ↔ taken = [] := by
  constructor
  · intro same
    by_contra filled
    exact Nat.ne_of_gt (c.lt_past filled) same
  · rintro rfl
    rfl

namespace Prim
variable {rest : List Char} {c : Cursor}

theorem commonPart_longest (first second : List Char) :
    Text.Longest (· <+: second) first (commonPart first second) := by
  refine ⟨commonPart_leads first second, ?_, ?_⟩
  · fun_induction commonPart first second with
    | case1 a as bs ih => exact List.cons_prefix_cons.2 ⟨rfl, ih⟩
    | case2 => exact List.nil_prefix
    | case3 => exact List.nil_prefix
  · intro other left right
    induction other generalizing first second with
    | nil => exact Nat.zero_le _
    | cons a other ih =>
        obtain ⟨more, rfl⟩ := left
        obtain ⟨more', rfl⟩ := right
        have shorter := ih (other ++ more) (other ++ more') (List.prefix_append _ _) (List.prefix_append _ _)
        simpa [commonPart] using shorter

theorem commonPart_eq_nil_iff {first second : List Char} :
    commonPart first second = [] ↔ first = [] ∨ second = [] ∨ first.head? ≠ second.head? := by
  cases first with
  | nil => simp [commonPart]
  | cons a first =>
      cases second with
      | nil => simp [commonPart]
      | cons b second => simp [commonPart]

theorem literal_found {a : String} (remains : c.remaining = .ok rest) (leads : a.toList <+: rest) :
    (literal a).run c = .ok (.success (.text a) (c.past a.toList)) := by
  obtain ⟨after, rfl⟩ := leads
  obtain ⟨moved, -, -⟩ := (Cursor.fits_of_remaining remains).past remains
  have found : a.toList.isPrefixOf (a.toList ++ after) = true :=
    List.isPrefixOf_iff_prefix.2 (List.prefix_append _ _)
  simp only [run, runLiteral, remains, ok_bind, if_pos found, moved]
  rfl

theorem literal_missed {a : String} (remains : c.remaining = .ok rest) (parts : ¬a.toList <+: rest) :
    let shared := commonPart rest a.toList
    ∃ after, rest = shared ++ after ∧ (c.past shared).remaining = .ok after ∧ (literal a).run c =
      .ok (.failure ("Expected " ++ Text.quoteString a) (c.past shared) (Cursor.previewOf after)) := by
  intro shared
  obtain ⟨after, split⟩ := commonPart_leads rest a.toList
  have remains' : c.remaining = .ok (shared ++ after) := by rw [remains, ← split]
  obtain ⟨moved, -, left⟩ := (Cursor.fits_of_remaining remains).past remains'
  have missed : ¬a.toList.isPrefixOf rest = true := fun found => parts (List.isPrefixOf_iff_prefix.1 found)
  refine ⟨after, split.symm, left, ?_⟩
  simp only [run, runLiteral, remains, ok_bind, if_neg missed]
  change (c.advance (Text.byteLength shared) >>= expected (Text.quoteString a)) = _
  rw [moved, ok_bind, expected, Outcome.failAt_of_remaining left]

end Prim

namespace Grammar

/-- A literal succeeds where the bytes of the text begin with its own, and moves behind them. Everywhere else it fails
behind the longest text that the two share, between two characters and before the end of the literal. So an
alternative is tried where the text ends or goes on with another character than the first of the literal. -/
theorem literal_reports_mismatch (g : Grammar) (a : String) (c : Cursor) (s : Session) (rest : List Char)
    (fuel : Nat) (remains : c.remaining = .ok rest) :
    let word := g.run (fuel + 1) (.prim (.literal a))
    (∀ v d t, word c s = .ok (.success v d, t) ↔
      Text.Begins a.toList rest ∧ v = .text a ∧ d = c.past a.toList ∧ t = s) ∧
    (¬Text.Begins a.toList rest → ∃ shared after, Text.Longest (· <+: a.toList) rest shared ∧
      rest = shared ++ after ∧ (c.past shared).remaining = .ok after ∧
      (c.past shared).index < (c.past a.toList).index ∧
      word c s = .ok (.failure ("Expected " ++ Text.quoteString a) (c.past shared) (Cursor.previewOf after), s)) ∧
    (word.GivesWay c s ↔ ¬Text.Begins a.toList rest ∧ (rest = [] ∨ a.toList.head? ≠ rest.head?)) ∧
    (¬word.GivesWay c s → word.Commits c s) := by
  intro word
  by_cases leads : a.toList <+: rest
  · have begins := Text.begins_iff.2 leads
    have found : word c s = .ok (.success (.text a) (c.past a.toList), s) :=
      run_prim (Prim.literal_found remains leads) fuel s
    refine ⟨fun v d t => ?_, fun parts => absurd begins parts, ?_, Runner.commits_of_not_givesWay found⟩
    · rw [found]
      simp [begins, eq_comm, and_assoc]
    · rw [Runner.givesWay_iff found]
      simp [begins, Outcome.isSuccess]
  · have parts : ¬Text.Begins a.toList rest := fun begins => leads (Text.begins_iff.1 begins)
    have longest := Prim.commonPart_longest rest a.toList
    obtain ⟨after, split, left, ran⟩ := Prim.literal_missed remains leads
    have missed : word c s = .ok (.failure _ _ _, s) := run_prim ran fuel s
    refine ⟨fun v d t => ?_, fun _ => ⟨_, after, longest, split, left, ?_, missed⟩, ?_,
      Runner.commits_of_not_givesWay missed⟩
    · rw [missed]
      simp [parts]
    · have other : Prim.commonPart rest a.toList ≠ a.toList := fun whole => leads (whole ▸ longest.leads)
      exact Nat.add_lt_add_left (Text.byteLength_lt_of_leads longest.meets other) c.index
    · have filled : a.toList ≠ [] := fun empty => leads (empty ▸ List.nil_prefix)
      rw [Runner.givesWay_iff missed]
      simp only [Outcome.isSuccess, Outcome.index, Outcome.cursor, Cursor.index_past_eq_iff, Prim.commonPart_eq_nil_iff,
        filled, parts, false_or, true_and, not_false_eq_true, ne_comm (a := rest.head?)]

theorem literal_reports_mismatch_inside_bytes :
    let word : Runner := Grammar.run {} 1 (.prim (.literal "aé"))
    let c : Cursor := ⟨['x', 'a', 'è', 'b'], 1, none⟩
    Text.Longest (· <+: ['a', 'é']) ['a', 'è', 'b'] ['a'] ∧
    word c {} = .ok (.failure "Expected \"aé\"" (c.past ['a']) "\"èb\"", {}) ∧
    ¬word.GivesWay c {} ∧ word.Commits c {} := by
  intro word c
  have text : "aé".toList = ['a', 'é'] := by decide +kernel
  have parts : ¬Text.Begins "aé".toList ['a', 'è', 'b'] := by
    rw [Text.begins_iff, text]
    decide
  obtain ⟨-, fails, givesWay, commits⟩ := literal_reports_mismatch {} "aé" c {} ['a', 'è', 'b'] 0 rfl
  obtain ⟨shared, after, longest, split, -, -, ran⟩ := fails parts
  rw [text] at longest
  obtain rfl : shared = ['a'] := longest.unique (Prim.commonPart_longest ['a', 'è', 'b'] ['a', 'é'])
  obtain rfl : ['è', 'b'] = after := by simpa using split
  have stays : ¬word.GivesWay c {} := by
    rw [givesWay, text]
    simp
  exact ⟨longest, ran, stays, commits stays⟩

end Grammar
end ParseEngine
