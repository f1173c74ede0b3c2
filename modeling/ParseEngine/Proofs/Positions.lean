import Mathlib.Data.Prod.Basic
import ParseEngine.Proofs.Diagnosis

namespace ParseEngine

namespace Text

def throughLines : Nat → List Char → List Char
  | 0, _ => []
  | _ + 1, [] => []
  | n + 1, a :: rest => a :: throughLines (if a = '\n' then n else n + 1) rest

/-- The offset that is reached by passing all lines before the given one, and then all columns before the given one. -/
def offsetOf (text : List Char) (line column : Nat) : Nat :=
  let lines := throughLines (line - 1) text
  byteLength (lines ++ (text.drop lines.length).take (column - 1))

variable {text before before' rest rest' : List Char} {n index line column : Nat}

theorem throughLines_append (broken : ∀ filled : before ≠ [], before.getLast filled = '\n') (rest : List Char) :
    throughLines (before.count '\n') (before ++ rest) = before := by
  induction before with
  | nil => simp [throughLines]
  | cons a before ih =>
      have later (filled : before ≠ []) : before.getLast filled = '\n' :=
        (List.getLast_cons filled).symm.trans (broken (List.cons_ne_nil a before))
      by_cases newline : a = '\n'
      · rw [newline, List.count_cons_self, List.cons_append, throughLines, if_pos rfl, ih later]
      · -- the last line break is still to come
        have filled : before ≠ [] := by
          rintro rfl
          exact newline (broken (List.cons_ne_nil a []))
        have member : '\n' ∈ before := later filled ▸ List.getLast_mem filled
        obtain ⟨n, counted⟩ := Nat.exists_eq_add_one_of_ne_zero (Nat.ne_of_gt (List.count_pos_iff.2 member))
        rw [List.count_cons_of_ne newline, counted, List.cons_append, throughLines, if_neg newline, ← counted, ih later]

theorem Place.offsetOf_eq (place : Place text index line column rest) : offsetOf text line column = index := by
  obtain ⟨lines, last, rfl, rfl, broken, -, rfl, rfl⟩ := place
  have passed : throughLines (lines.count '\n') (lines ++ last ++ rest) = lines := by
    rw [List.append_assoc]
    exact throughLines_append broken (last ++ rest)
  simp only [offsetOf, Nat.add_sub_cancel, passed]
  rw [List.append_assoc, List.drop_left, List.take_left]

theorem split_of_boundary (boundary : (dropBytes? index text).isSome) :
    ∃ before rest, text = before ++ rest ∧ byteLength before = index := by
  obtain ⟨rest, dropped⟩ := Option.isSome_iff_exists.1 boundary
  obtain ⟨before, split, size⟩ := dropBytes?_eq_some dropped
  exact ⟨before, rest, split, size⟩

theorem append_of_byteLength_le (split : before ++ rest = before' ++ rest')
    (le : byteLength before ≤ byteLength before') : ∃ more, before' = before ++ more ∧ rest = more ++ rest' := by
  obtain ⟨more, passed, left⟩ | ⟨more, rfl, left⟩ := List.append_eq_append_iff.1 split
  · exact ⟨more, passed, left⟩
  · have nothing : more = [] := by
      by_contra filled
      have wide := byteLength_pos filled
      rw [byteLength_append] at le
      omega
    subst nothing
    exact ⟨[], by simp, left.symm⟩

theorem append_of_byteLength_lt (split : before ++ rest = before' ++ rest')
    (lt : byteLength before < byteLength before') : ∃ more, more ≠ [] ∧ before' = before ++ more := by
  obtain ⟨more, rfl, -⟩ := append_of_byteLength_le split (Nat.le_of_lt lt)
  refine ⟨more, ?_, rfl⟩
  rintro rfl
  simp at lt

theorem floorOffset_le (n : Nat) (text : List Char) : floorOffset n text ≤ n := by
  unfold floorOffset
  induction text generalizing n with
  | nil => exact Nat.zero_le n
  | cons a rest ih =>
      rw [takeBytes]
      split
      · have := ih (n - a.utf8Size)
        rw [byteLength_cons]
        omega
      · exact Nat.zero_le n

theorem takeBytes_longest (fits : byteLength before ≤ n) (rest : List Char) :
    ∃ more, takeBytes n (before ++ rest) = before ++ more := by
  induction before generalizing n with
  | nil => exact ⟨_, rfl⟩
  | cons a before ih =>
      rw [byteLength_cons] at fits
      obtain ⟨more, taken⟩ := ih (n := n - a.utf8Size) (by omega)
      exact ⟨more, by rw [List.cons_append, takeBytes, if_pos (by omega), taken, List.cons_append]⟩

theorem le_floorOffset (boundary : (dropBytes? index text).isSome) (le : index ≤ n) : index ≤ floorOffset n text := by
  obtain ⟨before, rest, rfl, rfl⟩ := split_of_boundary boundary
  obtain ⟨more, taken⟩ := takeBytes_longest le rest
  rw [floorOffset, taken, byteLength_append]
  exact Nat.le_add_right _ _

structure Longest (kind : List Char → Prop) (text taken : List Char) : Prop where
  leads : taken <+: text
  meets : kind taken
  longest : ∀ other, other <+: text → kind other → other.length ≤ taken.length

theorem Longest.unique {kind : List Char → Prop} {taken taken' : List Char} (first : Longest kind text taken)
    (second : Longest kind text taken') : taken = taken' := by
  have le := second.longest taken first.leads first.meets
  have ge := first.longest taken' second.leads second.meets
  exact (List.prefix_of_prefix_length_le first.leads second.leads le).eq_of_length_le ge

end Text

def behind (before : List Char) : Nat × Nat :=
  (before.count '\n' + 1, (before.reverse.takeWhile (· != '\n')).length + 1)

theorem lineColumn_eq_behind (text : List Char) (index : Nat) :
    lineColumn text index = behind (Text.takeBytes index text) := rfl

theorem lineColumn_append (before rest : List Char) :
    lineColumn (before ++ rest) (Text.byteLength before) = behind before := by
  rw [lineColumn_eq_behind, Text.takeBytes_append]

theorem behind_concat (before : List Char) (a : Char) :
    behind (before ++ [a]) =
      if a = '\n' then ((behind before).1 + 1, 1) else ((behind before).1, (behind before).2 + 1) := by
  by_cases newline : a = '\n' <;> simp [behind, newline]

theorem behind_lt (before : List Char) {more : List Char} (filled : more ≠ []) :
    Prod.Lex (· < ·) (· < ·) (behind before) (behind (before ++ more)) := by
  induction more generalizing before with
  | nil => exact absurd rfl filled
  | cons a more ih =>
      have step : Prod.Lex (· < ·) (· < ·) (behind before) (behind (before ++ [a])) := by
        rw [behind_concat]
        split
        · exact .left _ _ (Nat.lt_succ_self _)
        · exact .right _ (Nat.lt_succ_self _)
      cases more with
      | nil => exact step
      | cons b more =>
          have rest := ih (before ++ [a]) (List.cons_ne_nil b more)
          rw [List.append_assoc, List.singleton_append] at rest
          exact IsTrans.trans _ _ _ step rest

/-- Lines and columns come in the order of the places between the characters, and a place is found again from them.
Every other offset, past the end or inside a character, has those of the nearest place before it. -/
theorem lineColumn_identifies (text : List Char) :
    (∀ i j, (Text.dropBytes? i text).isSome → (Text.dropBytes? j text).isSome → i < j →
      Prod.Lex (· < ·) (· < ·) (lineColumn text i) (lineColumn text j)) ∧
    (∀ i, (Text.dropBytes? i text).isSome → Text.offsetOf text (lineColumn text i).1 (lineColumn text i).2 = i) ∧
    ∀ n, ∃ i rest, (Text.dropBytes? i text).isSome ∧ i ≤ n ∧ (∀ j, (Text.dropBytes? j text).isSome → j ≤ n → j ≤ i) ∧
      lineColumn text n = lineColumn text i ∧ Text.Place text i (lineColumn text n).1 (lineColumn text n).2 rest := by
  refine ⟨fun i j here there lt => ?_, fun i here => ?_, fun n => ?_⟩
  · obtain ⟨before, rest, rfl, rfl⟩ := Text.split_of_boundary here
    obtain ⟨before', rest', split, rfl⟩ := Text.split_of_boundary there
    obtain ⟨more, filled, rfl⟩ := Text.append_of_byteLength_lt split lt
    rw [lineColumn_append, split, lineColumn_append]
    exact behind_lt before filled
  · obtain ⟨before, rest, rfl, rfl⟩ := Text.split_of_boundary here
    exact (lineColumn_place before rest).offsetOf_eq
  · obtain ⟨rest, split⟩ := Text.takeBytes_leads n text
    have place := lineColumn_place (Text.takeBytes n text) rest
    have same := lineColumn_append (Text.takeBytes n text) rest
    rw [split] at place same
    have floor : lineColumn text n = lineColumn text (Text.floorOffset n text) := same.symm
    refine ⟨Text.floorOffset n text, rest, Cursor.settled_boundary text n none, Text.floorOffset_le n text,
      fun j => Text.le_floorOffset, floor, ?_⟩
    rw [floor]
    exact place

theorem lineColumn_identifies_wide :
    let text := ['é', '\n', 'a', '€', 'b']
    Prod.Lex (· < ·) (· < ·) (lineColumn text 2) (lineColumn text 4) ∧
    (lineColumn text 7 = (2, 3) ∧ Text.offsetOf text 2 3 = 7) ∧
    ∃ i, i ≤ 6 ∧ (∀ j, (Text.dropBytes? j text).isSome → j ≤ 6 → j ≤ i) ∧ lineColumn text 6 = lineColumn text i := by
  intro text
  obtain ⟨ordered, found, floored⟩ := lineColumn_identifies text
  obtain ⟨i, rest, -, le, greatest, same, -⟩ := floored 6
  exact ⟨ordered 2 4 (by decide) (by decide) (by decide), ⟨by decide, found 7 (by decide)⟩, i, le, greatest, same⟩

end ParseEngine
