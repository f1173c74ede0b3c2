import ParseEngine.Calculator
import ParseEngine.Proofs.Numerals
import ParseEngine.Text.Blank

/-!
Arithmetic expressions and their values.

    expression := term (('+' | '-') term)*
    term       := factor (('*' | '/') factor)*
    factor     := numeral | '(' expression ')'

Blanks may follow every token. The operators of a level are applied from the left to the right.

An expression that stands at the beginning of a text, with nothing after it that could make it longer, is the only one
there. So a reader that takes one token after the other need not look ahead.
-/

namespace ParseEngine.Calculator

inductive Level where
  | product
  | sum

inductive Phrase where
  | factor
  | chain (level : Level)
  | rounds (level : Level) (acc : Float)

def Level.operators : Level → List Char
  | .product => ['*', '/']
  | .sum => ['+', '-']

def Level.operand : Level → Phrase
  | .product => .factor
  | .sum => .chain .product

inductive Level.Operates : Level → Char → Float → Float → Float → Prop
  | add {a b : Float} : Operates .sum '+' a b (a + b)
  | subtract {a b : Float} : Operates .sum '-' a b (a - b)
  | multiply {a b : Float} : Operates .product '*' a b (a * b)
  | divide {a b : Float} : Operates .product '/' a b (a / b)

theorem Level.operates_iff {level : Level} {op : Char} {a b x : Float} :
    level.Operates op a b x ↔ op ∈ level.operators ∧ x = apply op a b := by
  constructor
  · intro operates
    cases operates <;> exact ⟨by decide, rfl⟩
  · rintro ⟨operator, rfl⟩
    cases level <;> simp only [Level.operators, List.mem_cons, List.not_mem_nil, or_false] at operator <;>
      rcases operator with rfl | rfl
    · exact .multiply
    · exact .divide
    · exact .add
    · exact .subtract

def Blank (text : List Char) : Prop :=
  ∀ c ∈ text, Text.isBlank c = true

/-- The text is a phrase with the value. Rounds of operators and operands are folded onto the value so far. -/
inductive Reads : Phrase → List Char → Float → Prop
  | number {numeral : Numeral.Parts} {blanks : List Char} (isMatch : numeral.Match) (blank : Blank blanks) :
      Reads .factor (numeral.text ++ blanks) numeral.number
  | parens {before inner after : List Char} {x : Float} (blank : Blank before) (reads : Reads (.chain .sum) inner x)
      (blankAfter : Blank after) : Reads .factor ('(' :: (before ++ (inner ++ ')' :: after))) x
  | chain {level : Level} {first more : List Char} {a x : Float} (operand : Reads level.operand first a)
      (rounds : Reads (.rounds level a) more x) : Reads (.chain level) (first ++ more) x
  | done {level : Level} {a : Float} : Reads (.rounds level a) [] a
  | round {level : Level} {op : Char} {blanks piece more : List Char} {a b next x : Float}
      (operates : level.Operates op a b next) (blank : Blank blanks) (operand : Reads level.operand piece b)
      (rounds : Reads (.rounds level next) more x) : Reads (.rounds level a) (op :: (blanks ++ (piece ++ more))) x

def Accepts (text : List Char) (x : Float) : Prop :=
  ∃ blanks body, Blank blanks ∧ Reads (.chain .sum) body x ∧ text = blanks ++ body

def Phrase.follow : Phrase → List Char
  | .factor => [')', '+', '-', '*', '/']
  | .chain .product | .rounds .product _ => [')', '+', '-']
  | .chain .sum | .rounds .sum _ => [')']

def Phrase.Ends (phrase : Phrase) (rest : List Char) : Prop :=
  ∀ c tail, rest = c :: tail → c ∈ phrase.follow

structure Takes (phrase : Phrase) (text taken : List Char) (x : Float) : Prop where
  reads : Reads phrase taken x
  leads : taken <+: text
  only : ∀ taken' rest' x', text = taken' ++ rest' → phrase.Ends rest' → Reads phrase taken' x' →
    taken' = taken ∧ x' = x

def Refuses (phrase : Phrase) (text : List Char) : Prop :=
  ∀ taken rest x, text = taken ++ rest → phrase.Ends rest → ¬Reads phrase taken x

variable {phrase : Phrase} {level : Level} {text rest taken inner before after piece : List Char} {op : Char}
  {a b x : Float}

section Blank
open Numeral

theorem isBlank_digit {c : Char} (digit : c.isDigit = true) : Text.isBlank c = false := by
  simp only [Char.isDigit, Bool.and_eq_true, decide_eq_true_eq] at digit
  have low : 48 ≤ c.toNat := digit.1
  have high : c.toNat ≤ 57 := digit.2
  have all : ∀ n < 58, 48 ≤ n → Text.blankRuns.contains n = false := by decide
  exact all c.toNat (by omega) low

theorem lengthens_blank {c : Char} (blank : Text.isBlank c = true) : lengthens c = false := by
  cases more : lengthens c with
  | false => rfl
  | true =>
      simp only [lengthens, Bool.or_eq_true, beq_iff_eq] at more
      rcases more with ((digit | rfl) | rfl) | rfl
      · rw [isBlank_digit digit] at blank
        cases blank
      all_goals exact absurd blank (by decide)

theorem numeral_begins {parts : Parts} (isMatch : parts.Match) :
    ∃ c tail, parts.text = c :: tail ∧ Text.isBlank c = false ∧ c ≠ '(' := by
  obtain ⟨c, tail, begins, kind⟩ := isMatch.mantissa.head
  cases mark : parts.mark with
  | nil =>
      refine ⟨c, tail ++ parts.suffix, by simp [Parts.text, mark, begins], ?_⟩
      rcases kind with digit | rfl
      · exact ⟨isBlank_digit digit, by rintro rfl; cases digit⟩
      · decide
  | cons m marks =>
      refine ⟨m, marks ++ parts.mantissa ++ parts.suffix, by simp [Parts.text, mark], ?_⟩
      have isSign := isMatch.mark
      rw [mark] at isSign
      cases isSign <;> decide

theorem blanks_unique {blanks blanks' rest rest' : List Char} (same : blanks ++ rest = blanks' ++ rest')
    (blank : Blank blanks) (blank' : Blank blanks') (stops : Stops Text.isBlank rest)
    (stops' : Stops Text.isBlank rest') : blanks = blanks' ∧ rest = rest' := by
  have first := takeWhile_of_stops blank stops
  rw [same, takeWhile_of_stops blank' stops'] at first
  cases first
  exact ⟨rfl, List.append_cancel_left same⟩

theorem Phrase.Ends.stops (ends : phrase.Ends rest) : Stops Text.isBlank rest := by
  intro c tail same
  have member := ends c tail same
  have all : phrase.follow.all (!Text.isBlank ·) = true := by
    cases phrase with
    | factor => decide
    | chain level => cases level <;> decide
    | rounds level acc => cases level <;> simp only [Phrase.follow] <;> decide
  simpa using List.all_eq_true.1 all c member

theorem Phrase.Ends.numeral_stops {blanks : List Char} (ends : Phrase.factor.Ends rest) (blank : Blank blanks) :
    Stops lengthens (blanks ++ rest) := by
  intro c tail same
  cases blanks with
  | nil =>
      have member := ends c tail same
      have all : Phrase.factor.follow.all (!lengthens ·) = true := by decide
      simpa using List.all_eq_true.1 all c member
  | cons d blanks =>
      cases same
      exact lengthens_blank (blank c (List.mem_cons_self ..))

end Blank

theorem Level.operand_ne_rounds (level level' : Level) (acc : Float) : level.operand ≠ .rounds level' acc := by
  cases level <;> simp [Level.operand]

theorem Reads.begins (reads : Reads phrase taken x) (whole : ∀ level acc, phrase ≠ .rounds level acc) :
    ∃ c tail, taken = c :: tail ∧ Text.isBlank c = false := by
  induction reads with
  | number isMatch blank =>
      obtain ⟨c, tail, begins, notBlank, -⟩ := numeral_begins isMatch
      exact ⟨c, _, by rw [begins, List.cons_append], notBlank⟩
  | parens => exact ⟨_, _, rfl, by decide⟩
  | @chain level first more a x operand rounds ih _ =>
      obtain ⟨c, tail, rfl, notBlank⟩ := ih level.operand_ne_rounds
      exact ⟨c, _, rfl, notBlank⟩
  | done => exact absurd rfl (whole _ _)
  | round => exact absurd rfl (whole _ _)

theorem Reads.stops_operand (reads : Reads level.operand taken x) : Numeral.Stops Text.isBlank (taken ++ rest) := by
  obtain ⟨c, tail, rfl, notBlank⟩ := reads.begins level.operand_ne_rounds
  exact .cons notBlank

theorem Reads.operand_ne_nil (reads : Reads level.operand taken x) : taken ≠ [] := by
  obtain ⟨c, tail, rfl, -⟩ := reads.begins level.operand_ne_rounds
  exact List.cons_ne_nil c tail

theorem Reads.stops_chain (reads : Reads (.chain level) taken x) : Numeral.Stops Text.isBlank (taken ++ rest) := by
  obtain ⟨c, tail, rfl, notBlank⟩ := reads.begins fun _ _ => by simp
  exact .cons notBlank

theorem accepts_iff {blanks : List Char} (split : text = blanks ++ rest) (blank : Blank blanks)
    (stops : Numeral.Stops Text.isBlank rest) : Accepts text x ↔ Reads (.chain .sum) rest x := by
  constructor
  · rintro ⟨blanks', body, blank', reads, split'⟩
    have stops' : Numeral.Stops Text.isBlank (body ++ []) := reads.stops_chain
    rw [List.append_nil] at stops'
    obtain ⟨-, rfl⟩ := blanks_unique (split.symm.trans split') blank blank' stops stops'
    exact reads
  · intro reads
    exact ⟨blanks, rest, blank, reads, split⟩

theorem Reads.ends_operand {more : List Char} (rounds : Reads (.rounds level a) more x)
    (ends : (Phrase.chain level).Ends rest) : level.operand.Ends (more ++ rest) := by
  intro c tail same
  cases rounds with
  | done =>
      have member := ends c tail same
      have more : ∀ c ∈ (Phrase.chain level).follow, c ∈ level.operand.follow := by
        cases level <;> simp [Phrase.follow, Level.operand]
      exact more c member
  | round operates =>
      cases same
      have more : ∀ c ∈ level.operators, c ∈ level.operand.follow := by
        cases level <;> simp [Phrase.follow, Level.operand, Level.operators]
      exact more c (Level.operates_iff.mp operates).1

theorem Phrase.Ends.closing : (Phrase.chain .sum).Ends (')' :: rest) := by
  intro c tail same
  cases same
  exact List.mem_singleton_self _

theorem Phrase.Ends.nil : phrase.Ends [] :=
  fun _ _ same => by cases same

theorem Takes.reads_iff (takes : Takes phrase (taken ++ after) taken a) :
    Reads phrase (taken ++ after) x ↔ after = [] ∧ x = a := by
  constructor
  · intro reads
    obtain ⟨same, sameValue⟩ := takes.only _ [] x (List.append_nil _).symm .nil reads
    exact ⟨List.append_right_eq_self.1 same, sameValue⟩
  · rintro ⟨rfl, rfl⟩
    rw [List.append_nil]
    exact takes.reads

theorem Refuses.not_reads (refuses : Refuses phrase text) : ¬Reads phrase text x :=
  refuses text [] x (List.append_nil text).symm .nil

section Factor

theorem Takes.number (read : Numeral.number? text = some (taken, x)) (split : text = taken ++ (after ++ rest))
    (blank : Blank after) (stops : Numeral.Stops Text.isBlank rest) : Takes .factor text (taken ++ after) x := by
  obtain ⟨parts, isMatch, rfl, rfl⟩ := Numeral.number?_parts read
  refine ⟨.number isMatch blank, ⟨rest, by rw [split, List.append_assoc]⟩, fun taken' rest' x' split' ends reads => ?_⟩
  cases reads with
  | @number parts' blanks isMatch' blank' =>
      rw [List.append_assoc] at split'
      have read' := Numeral.number?_append isMatch' (ends.numeral_stops blank')
      rw [← split', read] at read'
      obtain ⟨same, sameNumber⟩ := Prod.mk.inj (Option.some.inj read')
      rw [← same, ← sameNumber]
      rw [split, ← same] at split'
      obtain ⟨rfl, -⟩ := blanks_unique (List.append_cancel_left split') blank blank' stops ends.stops
      exact ⟨rfl, rfl⟩
  | parens =>
      obtain ⟨c, tail, begins, -, other⟩ := numeral_begins isMatch
      rw [split, begins] at split'
      exact absurd (List.cons.inj split').1 other

variable (unread : Numeral.number? text = none)
include unread

theorem Reads.factor_parens (reads : Reads .factor taken x) (ends : Phrase.factor.Ends rest)
    (split : text = taken ++ rest) : ∃ before inner after, Blank before ∧ Reads (.chain .sum) inner x ∧ Blank after ∧
      taken = '(' :: (before ++ (inner ++ ')' :: after)) := by
  cases reads with
  | number isMatch blank =>
      rw [List.append_assoc] at split
      rw [split, Numeral.number?_append isMatch (ends.numeral_stops blank)] at unread
      cases unread
  | parens blank inside blankAfter => exact ⟨_, _, _, blank, inside, blankAfter, rfl⟩

theorem Refuses.unopened (stops : Numeral.Stops (· == '(') text) : Refuses .factor text := by
  intro taken rest x split ends reads
  obtain ⟨before, inner, after, -, -, -, rfl⟩ := reads.factor_parens unread ends split
  exact absurd (stops '(' _ split) (by decide)

variable (split : text = '(' :: (before ++ rest)) (blank : Blank before) (stops : Numeral.Stops Text.isBlank rest)
include split blank stops

theorem Reads.inside {last : List Char} (reads : Reads .factor taken x) (ends : Phrase.factor.Ends last)
    (whole : text = taken ++ last) : ∃ inner after, Reads (.chain .sum) inner x ∧ Blank after ∧
      rest = inner ++ ')' :: (after ++ last) ∧ taken = '(' :: (before ++ (inner ++ ')' :: after)) := by
  obtain ⟨before', inner, after, blank', inside, blankAfter, rfl⟩ := reads.factor_parens unread ends whole
  rw [split] at whole
  simp only [List.cons_append, List.append_assoc, List.cons.injEq, true_and] at whole
  obtain ⟨rfl, rfl⟩ := blanks_unique whole blank blank' stops inside.stops_chain
  exact ⟨inner, after, inside, blankAfter, rfl, rfl⟩

theorem Refuses.empty (refuses : Refuses (.chain .sum) rest) : Refuses .factor text := by
  intro taken last x whole ends reads
  obtain ⟨inner, after, inside, -, same, -⟩ := reads.inside unread split blank stops ends whole
  exact refuses inner _ x same .closing inside

theorem Refuses.unclosed (takes : Takes (.chain .sum) rest inner x) (goesOn : rest = inner ++ after)
    (unclosed : Numeral.Stops (· == ')') after) : Refuses .factor text := by
  intro taken last x' whole ends reads
  obtain ⟨inner', after', inside, -, same, -⟩ := reads.inside unread split blank stops ends whole
  obtain ⟨rfl, -⟩ := takes.only inner' _ x' same .closing inside
  rw [goesOn] at same
  exact absurd (unclosed _ _ (List.append_cancel_left same)) (by decide)

theorem Takes.parens {last : List Char} (takes : Takes (.chain .sum) rest inner x)
    (closes : rest = inner ++ ')' :: (after ++ last)) (blankAfter : Blank after)
    (stopsAfter : Numeral.Stops Text.isBlank last) :
    Takes .factor text ('(' :: (before ++ (inner ++ ')' :: after))) x := by
  refine ⟨.parens blank takes.reads blankAfter, ⟨last, by simp [split, closes]⟩, ?_⟩
  intro taken' last' x' whole ends reads
  obtain ⟨inner', after', inside, blankAfter', same, rfl⟩ := reads.inside unread split blank stops ends whole
  obtain ⟨rfl, rfl⟩ := takes.only inner' _ x' same .closing inside
  rw [closes] at same
  have sameAfter := (List.cons.inj (List.append_cancel_left same)).2
  obtain ⟨rfl, -⟩ := blanks_unique sameAfter blankAfter blankAfter' stopsAfter ends.stops
  exact ⟨rfl, rfl⟩

end Factor

/-- An operand with some rounds, with which every chain at the beginning of the text begins. -/
structure Grown (level : Level) (text taken : List Char) (a : Float) : Prop where
  reads : ∀ more x, Reads (.rounds level a) more x → Reads (.chain level) (taken ++ more) x
  leads : taken <+: text
  only : ∀ taken' rest' x', text = taken' ++ rest' → (Phrase.chain level).Ends rest' →
    Reads (.chain level) taken' x' → ∃ more, taken' = taken ++ more ∧ Reads (.rounds level a) more x'

theorem Refuses.chain (refuses : Refuses level.operand text) : Refuses (.chain level) text := by
  intro taken rest x split ends reads
  cases reads with
  | @chain _ first more a x operand rounds =>
      rw [List.append_assoc] at split
      exact refuses first _ a split (rounds.ends_operand ends) operand

theorem Grown.operand (takes : Takes level.operand text taken a) : Grown level text taken a := by
  refine ⟨fun more x rounds => .chain takes.reads rounds, takes.leads, fun taken' rest' x' split ends reads => ?_⟩
  cases reads with
  | @chain _ first more b x operand rounds =>
      rw [List.append_assoc] at split
      obtain ⟨rfl, rfl⟩ := takes.only first _ b split (rounds.ends_operand ends) operand
      exact ⟨more, rfl, rounds⟩

section Grown
variable (grown : Grown level text taken a)
include grown

theorem Grown.takes (stops : ∀ more x rest', text = taken ++ (more ++ rest') → (Phrase.chain level).Ends rest' →
    Reads (.rounds level a) more x → more = []) : Takes (.chain level) text taken a := by
  have reads := grown.reads [] a .done
  rw [List.append_nil] at reads
  refine ⟨reads, grown.leads, fun taken' rest' x' split ends reads' => ?_⟩
  obtain ⟨more, rfl, rounds⟩ := grown.only taken' rest' x' split ends reads'
  rw [List.append_assoc] at split
  cases stops more x' rest' split ends rounds
  cases rounds
  exact ⟨List.append_nil taken, rfl⟩

theorem Grown.no_operator (split : text = taken ++ rest)
    (stops : Numeral.Stops (level.operators.contains ·) rest) : Takes (.chain level) text taken a := by
  refine grown.takes fun more x rest' split' _ rounds => ?_
  cases rounds with
  | done => rfl
  | round operates =>
      rw [split] at split'
      have none := stops _ _ (List.append_cancel_left split')
      simp [(Level.operates_iff.mp operates).1] at none

variable (split : text = taken ++ op :: (before ++ rest)) (operator : op ∈ level.operators) (blank : Blank before)
  (stops : Numeral.Stops Text.isBlank rest)
include split operator blank stops

theorem Grown.next {more rest' : List Char} (split' : text = taken ++ (more ++ rest'))
    (ends : (Phrase.chain level).Ends rest') (rounds : Reads (.rounds level a) more x) :
    ∃ piece more' b, more = op :: (before ++ (piece ++ more')) ∧ rest = piece ++ (more' ++ rest') ∧
      Reads level.operand piece b ∧ Reads (.rounds level (apply op a b)) more' x := by
  rw [split] at split'
  have same := List.append_cancel_left split'
  cases rounds with
  | done =>
      have apart : ∀ c ∈ level.operators, c ∉ (Phrase.chain level).follow := by
        cases level <;> simp [Phrase.follow, Level.operators]
      exact absurd (ends op _ same.symm) (apart op operator)
  | @round _ op' blanks piece more' _ b next x operates blank' operand rounds =>
      simp only [List.cons_append, List.append_assoc, List.cons.injEq] at same
      obtain ⟨rfl, same⟩ := same
      obtain ⟨-, rfl⟩ := Level.operates_iff.mp operates
      obtain ⟨rfl, rfl⟩ := blanks_unique same blank blank' stops operand.stops_operand
      exact ⟨piece, more', b, rfl, rfl, operand, rounds⟩

theorem Grown.no_operand (refuses : Refuses level.operand rest) : Takes (.chain level) text taken a := by
  refine grown.takes fun more x rest' split' ends rounds => ?_
  obtain ⟨piece, more', b, -, rfl, operand, rounds'⟩ := grown.next split operator blank stops split' ends rounds
  exact absurd operand (refuses piece _ b rfl (rounds'.ends_operand ends))

theorem Grown.round (takes : Takes level.operand rest piece b) :
    Grown level text (taken ++ op :: (before ++ piece)) (apply op a b) := by
  refine ⟨fun more x rounds => ?_, ?_, fun taken' rest' x' split' ends reads => ?_⟩
  · have operates : level.Operates op a b (apply op a b) := Level.operates_iff.mpr ⟨operator, rfl⟩
    have reads := grown.reads _ x (.round operates blank takes.reads rounds)
    simpa using reads
  · obtain ⟨rest', rfl⟩ := takes.leads
    exact ⟨rest', by simp [split]⟩
  · obtain ⟨more, rfl, rounds⟩ := grown.only taken' rest' x' split' ends reads
    rw [List.append_assoc] at split'
    obtain ⟨piece', more', b', rfl, same, operand, rounds'⟩ :=
      grown.next split operator blank stops split' ends rounds
    obtain ⟨rfl, rfl⟩ := takes.only piece' _ b' same (rounds'.ends_operand ends) operand
    exact ⟨more', by simp, rounds'⟩

end Grown

end ParseEngine.Calculator
