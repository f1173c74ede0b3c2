import ParseEngine.Numeral

/-!
Numerals as a pattern, `[+-]?([0-9]+(\.[0-9]*)?|\.[0-9]+)([eE][+-]?[0-9]+)?`, and what is read of a text that begins
with one. The reader takes as much as it can, so it takes a whole numeral exactly where no longer one could begin.
-/

namespace ParseEngine.Numeral

def AllDigits (text : List Char) : Prop :=
  ∀ d ∈ text, d.isDigit = true

def Stops (kind : Char → Bool) (rest : List Char) : Prop :=
  ∀ c tail, rest = c :: tail → kind c = false

inductive IsSign : List Char → Prop
  | none : IsSign []
  | plus : IsSign ['+']
  | minus : IsSign ['-']

inductive IsMantissa : List Char → List Char → List Char → Prop
  | whole {ds : List Char} (nonempty : ds ≠ []) (digits : AllDigits ds) : IsMantissa ds ds []
  | point {ds fraction : List Char} (nonempty : ds ≠ []) (digits : AllDigits ds) (digits' : AllDigits fraction) :
      IsMantissa (ds ++ '.' :: fraction) ds fraction
  | fraction {ds : List Char} (nonempty : ds ≠ []) (digits : AllDigits ds) : IsMantissa ('.' :: ds) [] ds

inductive IsExponent : List Char → Int → Prop
  | none : IsExponent [] 0
  | some {e : Char} {mark ds : List Char} (letter : e = 'e' ∨ e = 'E') (sign : IsSign mark) (nonempty : ds ≠ [])
      (digits : AllDigits ds) : IsExponent (e :: (mark ++ ds)) (signedValue mark ds)

structure Parts where
  mark : List Char
  mantissa : List Char
  whole : List Char
  fraction : List Char
  suffix : List Char
  power : Int

namespace Parts

structure Match (parts : Parts) : Prop where
  mark : IsSign parts.mark
  mantissa : IsMantissa parts.mantissa parts.whole parts.fraction
  suffix : IsExponent parts.suffix parts.power

def text (parts : Parts) : List Char :=
  parts.mark ++ parts.mantissa ++ parts.suffix

def number (parts : Parts) : Float :=
  Decimal.toFloat (parts.mark == ['-'])
    ⟨valueOf (parts.whole ++ parts.fraction), parts.power - Int.ofNat parts.fraction.length⟩

end Parts

def lengthens (c : Char) : Bool :=
  c.isDigit || c == '.' || c == 'e' || c == 'E'

variable {text rest ds mark mantissa whole fraction suffix taken : List Char} {power n : Int} {x : Float}
  {kind kind' : Char → Bool}

theorem Stops.nil : Stops kind [] :=
  fun _ _ same => by cases same

theorem Stops.cons {c : Char} (stops : kind c = false) : Stops kind (c :: rest) := by
  intro d tail same
  cases same
  exact stops

theorem Stops.of (stops : Stops kind rest) (imp : ∀ c, kind' c = true → kind c = true) : Stops kind' rest := by
  intro c tail same
  have none := stops c tail same
  cases more : kind' c with
  | false => rfl
  | true => rw [imp c more] at none; cases none

theorem takeWhile_of_stops (all : ∀ c ∈ ds, kind c = true) (stops : Stops kind rest) :
    (ds ++ rest).takeWhile kind = ds := by
  induction ds with
  | nil =>
      cases rest with
      | nil => rfl
      | cons c tail => simp [stops c tail rfl]
  | cons d ds ih =>
      have first := all d (List.mem_cons_self ..)
      simp [first, ih fun c member => all c (List.mem_cons_of_mem d member)]

theorem stops_dropWhile (kind : Char → Bool) (text : List Char) : Stops kind (text.dropWhile kind) := by
  induction text with
  | nil => exact .nil
  | cons c tail ih =>
      cases first : kind c with
      | false =>
          rw [List.dropWhile_cons_of_neg (by simp [first])]
          exact .cons first
      | true =>
          rw [List.dropWhile_cons_of_pos first]
          exact ih

theorem digits_append (all : AllDigits ds) (stops : Stops Char.isDigit rest) : digits (ds ++ rest) = ds :=
  takeWhile_of_stops all stops

theorem allDigits_digits (text : List Char) : AllDigits (digits text) :=
  fun _ member => List.all_eq_true.1 List.all_takeWhile _ member

theorem sign_isSign (text : List Char) : IsSign (sign text) := by
  unfold sign
  split
  · exact .plus
  · exact .minus
  · exact .none

theorem sign_append (isSign : IsSign mark) (stops : Stops (fun c => c == '+' || c == '-') rest) :
    sign (mark ++ rest) = mark := by
  cases isSign with
  | none =>
      cases rest with
      | nil => rfl
      | cons c tail =>
          have other := stops c tail rfl
          simp only [Bool.or_eq_false_iff, beq_eq_false_iff_ne] at other
          simp only [List.nil_append]
          unfold sign
          split
          · rename_i same
            cases same
            exact absurd rfl other.1
          · rename_i same
            cases same
            exact absurd rfl other.2
          · rfl
  | plus => rfl
  | minus => rfl

theorem AllDigits.stops_sign (nonempty : ds ≠ []) (all : AllDigits ds) :
    Stops (fun c => c == '+' || c == '-') (ds ++ rest) := by
  cases ds with
  | nil => exact absurd rfl nonempty
  | cons d ds =>
      refine .cons ?_
      have digit := all d (List.mem_cons_self ..)
      simp only [Bool.or_eq_false_iff, beq_eq_false_iff_ne]
      constructor <;> rintro rfl <;> cases digit

theorem integer?_append (isSign : IsSign mark) (nonempty : ds ≠ []) (all : AllDigits ds)
    (stops : Stops Char.isDigit rest) : integer? (mark ++ ds ++ rest) = some (mark ++ ds, signedValue mark ds) := by
  have marked : sign (mark ++ ds ++ rest) = mark := by
    rw [List.append_assoc]
    exact sign_append isSign (all.stops_sign nonempty)
  have dropped : (mark ++ ds ++ rest).drop mark.length = ds ++ rest := by simp
  simp [integer?, -List.append_assoc, marked, dropped, digits_append all stops, nonempty]

theorem integer?_parts (read : integer? text = some (taken, n)) :
    ∃ mark ds, IsSign mark ∧ ds ≠ [] ∧ AllDigits ds ∧ taken = mark ++ ds ∧ n = signedValue mark ds := by
  simp only [integer?] at read
  split at read
  · cases read
  · rename_i nonempty
    cases read
    exact ⟨_, _, sign_isSign text, by simpa using nonempty, allDigits_digits _, rfl, rfl⟩

theorem mantissa?_append (isMantissa : IsMantissa mantissa whole fraction)
    (stops : Stops (fun c => c.isDigit || c == '.') rest) :
    mantissa? (mantissa ++ rest) = some (mantissa, whole, fraction) := by
  have digitStops : Stops Char.isDigit rest := stops.of fun c digit => by simp [digit]
  have pointStops (tail : List Char) : Stops Char.isDigit ('.' :: tail) := .cons rfl
  cases isMantissa with
  | whole nonempty all =>
      simp only [mantissa?, digits_append all digitStops, List.drop_left]
      split
      · rename_i tail
        exact absurd (stops '.' tail rfl) (by decide)
      · simp [nonempty]
  | point nonempty all all' =>
      simp [mantissa?, digits_append all (pointStops _), digits_append all' digitStops, nonempty]
  | fraction nonempty all =>
      have nothing : digits ('.' :: (fraction ++ rest)) = [] := by simp [digits]
      simp [mantissa?, nothing, digits_append all digitStops, nonempty]

theorem mantissa?_parts (read : mantissa? text = some (mantissa, whole, fraction)) :
    IsMantissa mantissa whole fraction := by
  simp only [mantissa?] at read
  split at read
  · rename_i tail _
    split at read
    · cases read
    · rename_i nonempty
      cases read
      by_cases none : digits text = []
      · rw [none] at nonempty ⊢
        exact .fraction (by simpa using nonempty) (allDigits_digits tail)
      · exact .point none (allDigits_digits text) (allDigits_digits tail)
  · split at read
    · cases read
    · rename_i nonempty
      cases read
      exact .whole (by simpa using nonempty) (allDigits_digits text)

theorem exponent_append (isExponent : IsExponent suffix power) (stops : Stops lengthens rest) :
    exponent (suffix ++ rest) = (suffix, power) := by
  cases isExponent with
  | none =>
      cases rest with
      | nil => rfl
      | cons c tail =>
          have other := stops c tail rfl
          simp only [lengthens, Bool.or_eq_false_iff, beq_eq_false_iff_ne] at other
          simp [exponent, other.1.2, other.2]
  | some letter isSign nonempty all =>
      have digitStops : Stops Char.isDigit rest := stops.of fun c digit => by simp [lengthens, digit]
      have read := integer?_append isSign nonempty all digitStops
      simp only [List.cons_append, exponent, if_pos letter, read]

theorem exponent_parts (text : List Char) : IsExponent (exponent text).1 (exponent text).2 := by
  unfold exponent
  split
  · split
    · rename_i letter
      split
      · rename_i taken n read
        obtain ⟨mark, ds, isSign, nonempty, all, rfl, rfl⟩ := integer?_parts read
        exact .some letter isSign nonempty all
      · exact .none
    · exact .none
  · exact .none

theorem IsMantissa.head (isMantissa : IsMantissa mantissa whole fraction) :
    ∃ c tail, mantissa = c :: tail ∧ (c.isDigit = true ∨ c = '.') := by
  cases isMantissa with
  | whole nonempty all =>
      obtain ⟨d, ds, rfl⟩ := List.exists_cons_of_ne_nil nonempty
      exact ⟨d, ds, rfl, .inl (all d (List.mem_cons_self ..))⟩
  | point nonempty all all' =>
      obtain ⟨d, ds, rfl⟩ := List.exists_cons_of_ne_nil nonempty
      exact ⟨d, _, rfl, .inl (all d (List.mem_cons_self ..))⟩
  | fraction => exact ⟨'.', _, rfl, .inr rfl⟩

theorem IsExponent.stops (isExponent : IsExponent suffix power) (stops : Stops lengthens rest) :
    Stops (fun c => c.isDigit || c == '.') (suffix ++ rest) := by
  cases isExponent with
  | none => exact stops.of fun c more => by simp_all [lengthens]
  | some letter => rcases letter with rfl | rfl <;> exact .cons rfl

theorem number?_append {parts : Parts} (isMatch : parts.Match) (stops : Stops lengthens rest) :
    number? (parts.text ++ rest) = some (parts.text, parts.number) := by
  obtain ⟨c, tail, begins, kind⟩ := isMatch.mantissa.head
  have signStops : Stops (fun c => c == '+' || c == '-') (parts.mantissa ++ (parts.suffix ++ rest)) := by
    rw [begins]
    refine .cons ?_
    simp only [Bool.or_eq_false_iff, beq_eq_false_iff_ne]
    rcases kind with digit | rfl
    · constructor <;> rintro rfl <;> cases digit
    · decide
  have marked : sign (parts.text ++ rest) = parts.mark := by
    simp only [Parts.text, List.append_assoc]
    exact sign_append isMatch.mark signStops
  have dropped : (parts.text ++ rest).drop parts.mark.length = parts.mantissa ++ (parts.suffix ++ rest) := by
    simp [Parts.text]
  simp only [number?, marked, dropped, mantissa?_append isMatch.mantissa (isMatch.suffix.stops stops),
    List.drop_left, exponent_append isMatch.suffix stops, Option.bind_eq_bind, Option.bind_some]
  rfl

theorem number?_parts (read : number? text = some (taken, x)) :
    ∃ parts : Parts, parts.Match ∧ parts.text = taken ∧ parts.number = x := by
  simp only [number?, Option.bind_eq_bind, Option.bind_eq_some_iff] at read
  obtain ⟨⟨mantissa, whole, fraction⟩, isMantissa, result⟩ := read
  cases result
  exact ⟨⟨sign text, mantissa, whole, fraction, _, _⟩,
    ⟨sign_isSign text, mantissa?_parts isMantissa, exponent_parts _⟩, rfl, rfl⟩

end ParseEngine.Numeral
