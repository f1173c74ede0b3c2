import Mathlib.Data.Nat.Digits.Defs
import ParseEngine.Proofs.Alternatives
import ParseEngine.Proofs.Fuel
import ParseEngine.Proofs.Positions
import ParseEngine.Proofs.Triples

/-!
Integers at the beginning of a text.

A sign or none and one or more digits stand for a number in the decimal system. The reader takes the longest such
beginning of a text. The number is the outcome if it fits into 64 bits, whatever the sign and however many zeros come
first; if it does not fit, the failure is where the numeral begins.
-/

namespace ParseEngine

namespace Numeral

def magnitude (ds : List Char) : Nat :=
  Nat.ofDigits 10 (ds.reverse.map fun d => d.toNat - '0'.toNat)

inductive IsInteger : List Char → Int → Prop
  | unsigned {ds : List Char} (nonempty : ds ≠ []) (digits : AllDigits ds) : IsInteger ds (magnitude ds)
  | plus {ds : List Char} (nonempty : ds ≠ []) (digits : AllDigits ds) : IsInteger ('+' :: ds) (magnitude ds)
  | minus {ds : List Char} (nonempty : ds ≠ []) (digits : AllDigits ds) : IsInteger ('-' :: ds) (-magnitude ds)

variable {text taken rest : List Char} {n n' : Int}

theorem valueOf_eq_magnitude (ds : List Char) : valueOf ds = magnitude ds := by
  rw [magnitude, Nat.ofDigits_eq_foldr, List.foldr_map, List.foldr_reverse, valueOf]
  congr
  funext n d
  simp [Nat.add_comm]

theorem isInteger_iff : IsInteger taken n ↔
    ∃ mark ds, IsSign mark ∧ ds ≠ [] ∧ AllDigits ds ∧ taken = mark ++ ds ∧ n = signedValue mark ds := by
  simp only [signedValue, valueOf_eq_magnitude]
  constructor
  · intro isInteger
    cases isInteger with
    | unsigned nonempty all => exact ⟨[], _, .none, nonempty, all, rfl, by simp⟩
    | plus nonempty all => exact ⟨['+'], _, .plus, nonempty, all, rfl, by simp⟩
    | minus nonempty all => exact ⟨['-'], _, .minus, nonempty, all, rfl, by simp⟩
  · rintro ⟨mark, ds, isSign, nonempty, all, rfl, rfl⟩
    cases isSign with
    | none => simpa using IsInteger.unsigned nonempty all
    | plus => simpa using IsInteger.plus nonempty all
    | minus => simpa using IsInteger.minus nonempty all

theorem IsInteger.read (isInteger : IsInteger taken n) (stops : Stops Char.isDigit rest) :
    integer? (taken ++ rest) = some (taken, n) := by
  obtain ⟨mark, ds, isSign, nonempty, all, rfl, rfl⟩ := isInteger_iff.1 isInteger
  exact integer?_append isSign nonempty all stops

theorem IsInteger.unique (first : IsInteger taken n) (second : IsInteger taken n') : n = n' := by
  have same := (first.read .nil).symm.trans (second.read .nil)
  simpa using same

theorem IsInteger.extended (isInteger : IsInteger taken n) (rest : List Char) :
    ∃ more n', integer? (taken ++ rest) = some (taken ++ more, n') := by
  obtain ⟨mark, ds, isSign, nonempty, all, rfl, rfl⟩ := isInteger_iff.1 isInteger
  have longer : AllDigits (ds ++ digits rest) := by
    intro d member
    rcases List.mem_append.1 member with member | member
    · exact all d member
    · exact allDigits_digits rest d member
  have read := integer?_append isSign (List.append_ne_nil_of_left_ne_nil nonempty _) longer
    (stops_dropWhile Char.isDigit rest)
  have split : digits rest ++ rest.dropWhile Char.isDigit = rest := List.takeWhile_append_dropWhile
  simp only [List.append_assoc, split] at read
  exact ⟨digits rest, _, by rw [List.append_assoc, read, List.append_assoc]⟩

theorem integer?_eq_none_iff : integer? text = none ↔ ∀ taken n, taken <+: text → ¬IsInteger taken n := by
  constructor
  · rintro unread taken n ⟨rest, rfl⟩ isInteger
    obtain ⟨more, n', read⟩ := isInteger.extended rest
    rw [unread] at read
    cases read
  · intro without
    cases read : integer? text with
    | none => rfl
    | some found =>
        obtain ⟨taken, n⟩ := found
        exact absurd (isInteger_iff.2 (integer?_parts read)) (without taken n (integer?_leads read))

theorem integer?_eq_some_iff : integer? text = some (taken, n) ↔
    Text.Longest (fun taken => ∃ n, IsInteger taken n) text taken ∧ IsInteger taken n := by
  have longest {taken : List Char} {n : Int} (read : integer? text = some (taken, n)) :
      Text.Longest (fun taken => ∃ n, IsInteger taken n) text taken ∧ IsInteger taken n := by
    have isInteger := isInteger_iff.2 (integer?_parts read)
    refine ⟨⟨integer?_leads read, ⟨n, isInteger⟩, ?_⟩, isInteger⟩
    rintro other ⟨rest, rfl⟩ ⟨n', other⟩
    obtain ⟨more, n'', read'⟩ := other.extended rest
    cases read.symm.trans read'
    simp
  constructor
  · exact longest
  · rintro ⟨isLongest, isInteger⟩
    cases read : integer? text with
    | none => exact absurd isInteger (integer?_eq_none_iff.1 read taken n isLongest.leads)
    | some found =>
        obtain ⟨taken', n'⟩ := found
        obtain ⟨isLongest', isInteger'⟩ := longest read
        obtain rfl := isLongest.unique isLongest'
        rw [isInteger.unique isInteger']

end Numeral

namespace Prim
variable {c : Cursor} {rest taken : List Char} {n : Int}
open Numeral (integer?)

theorem fitsInt64_iff : fitsInt64 n = true ↔ -2 ^ 63 ≤ n ∧ n ≤ 2 ^ 63 - 1 := by
  rw [fitsInt64, Bool.and_eq_true, decide_eq_true_iff, decide_eq_true_iff]
  rfl

theorem integer_missing (remains : c.remaining = .ok rest) (unread : integer? rest = none) :
    integer.run c = .ok (.failure "Expected integer" c (Cursor.previewOf rest)) := by
  simp only [run, runInteger, remains, ok_bind, unread]
  exact Outcome.failAt_of_remaining remains _

theorem integer_fits (remains : c.remaining = .ok rest) (read : integer? rest = some (taken, n))
    (lower : -2 ^ 63 ≤ n) (upper : n ≤ 2 ^ 63 - 1) :
    ∃ i : Int64, i.toInt = n ∧ integer.run c = .ok (.success (.int i) (c.past taken)) := by
  obtain ⟨after, split⟩ := Numeral.integer?_leads read
  have remains' : c.remaining = .ok (taken ++ after) := by rw [remains, split]
  obtain ⟨moved, -, -⟩ := (Cursor.fits_of_remaining remains).past remains'
  refine ⟨Int64.ofInt n, Int64.toInt_ofInt_of_le lower (by omega), ?_⟩
  simp only [run, runInteger, remains, ok_bind, read, if_pos (fitsInt64_iff.2 ⟨lower, upper⟩), moved]
  rfl

theorem integer_too_large (remains : c.remaining = .ok rest) (read : integer? rest = some (taken, n))
    (outside : ¬(-2 ^ 63 ≤ n ∧ n ≤ 2 ^ 63 - 1)) :
    integer.run c = .ok (.failure ("Invalid integer " ++ Text.quote taken) c (Cursor.previewOf rest)) := by
  have large : ¬fitsInt64 n = true := fun fits => outside (fitsInt64_iff.1 fits)
  simp only [run, runInteger, remains, ok_bind, read, if_neg large]
  exact Outcome.failAt_of_remaining remains _

end Prim

namespace Grammar
open Numeral

theorem integer_accepts_numerals (g : Grammar) (c : Cursor) (s : Session) (rest : List Char) (fuel : Nat)
    (remains : c.remaining = .ok rest) :
    let integer := g.run (fuel + 1) (.prim .integer)
    ((∀ taken n, taken <+: rest → ¬IsInteger taken n) →
      integer c s = .ok (.failure "Expected integer" c (Cursor.previewOf rest), s) ∧ integer.GivesWay c s) ∧
    (∀ taken n, Text.Longest (fun taken => ∃ n, IsInteger taken n) rest taken → IsInteger taken n →
      (-2 ^ 63 ≤ n → n ≤ 2 ^ 63 - 1 →
        ∃ i : Int64, i.toInt = n ∧ integer c s = .ok (.success (.int i) (c.past taken), s)) ∧
      (¬(-2 ^ 63 ≤ n ∧ n ≤ 2 ^ 63 - 1) →
        integer c s = .ok (.failure ("Invalid integer " ++ Text.quote taken) c (Cursor.previewOf rest), s) ∧
          integer.GivesWay c s)) ∧
    ((∀ taken n, taken <+: rest → ¬IsInteger taken n) ∨
      ∃ taken n, Text.Longest (fun taken => ∃ n, IsInteger taken n) rest taken ∧ IsInteger taken n) := by
  intro integer
  refine ⟨fun without => ?_, fun taken n longest isInteger => ⟨fun lower upper => ?_, fun outside => ?_⟩, ?_⟩
  · have failed := run_prim (g := g) (Prim.integer_missing remains (integer?_eq_none_iff.2 without)) fuel s
    exact ⟨failed, (Runner.givesWay_iff failed).2 ⟨rfl, rfl⟩⟩
  · have read := integer?_eq_some_iff.2 ⟨longest, isInteger⟩
    obtain ⟨i, same, ran⟩ := Prim.integer_fits remains read lower upper
    exact ⟨i, same, run_prim ran fuel s⟩
  · have read := integer?_eq_some_iff.2 ⟨longest, isInteger⟩
    have failed := run_prim (g := g) (Prim.integer_too_large remains read outside) fuel s
    exact ⟨failed, (Runner.givesWay_iff failed).2 ⟨rfl, rfl⟩⟩
  · cases read : integer? rest with
    | none => exact .inl (integer?_eq_none_iff.1 read)
    | some found => exact .inr ⟨found.1, found.2, integer?_eq_some_iff.1 read⟩

theorem integer_accepts_numerals_at_bounds :
    let integer : Runner := Grammar.run {} 1 (.prim .integer)
    let place (text : List Char) : Cursor := ⟨'é' :: text, 2, none⟩
    let least := "-009223372036854775808".toList
    let large := "+9223372036854775808".toList
    (∃ i : Int64, i.toInt = -2 ^ 63 ∧
      integer (place (least ++ [';'])) {} = .ok (.success (.int i) ((place (least ++ [';'])).past least), {})) ∧
    integer.GivesWay (place large) {} ∧ integer.GivesWay (place ['-', 'x']) {} := by
  intro integer place least large
  have read : integer? (least ++ [';']) = some (least, -2 ^ 63) := by decide +kernel
  have read' : integer? large = some (large, 2 ^ 63) := by decide +kernel
  have unread : integer? ['-', 'x'] = none := by decide
  obtain ⟨longest, isInteger⟩ := integer?_eq_some_iff.1 read
  obtain ⟨longest', isInteger'⟩ := integer?_eq_some_iff.1 read'
  obtain ⟨-, reads, -⟩ := integer_accepts_numerals {} (place (least ++ [';'])) {} _ 0 rfl
  obtain ⟨-, reads', -⟩ := integer_accepts_numerals {} (place large) {} _ 0 rfl
  obtain ⟨missing, -, -⟩ := integer_accepts_numerals {} (place ['-', 'x']) {} _ 0 rfl
  exact ⟨(reads _ _ longest isInteger).1 (by decide) (by decide),
    ((reads' _ _ longest' isInteger').2 (by decide)).2, (missing (integer?_eq_none_iff.1 unread)).2⟩

end Grammar
end ParseEngine
