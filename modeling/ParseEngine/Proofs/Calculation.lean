import ParseEngine.Engine
import ParseEngine.Proofs.Triples

/-!
The calculator gives every text its value, and refuses the texts that have none.

A level grows a seed from its operand: each pass reads the seed, an operator and one more operand, so the seed is always
an operand with some rounds, and the growth stops exactly where no round follows. The only rules in flight are those
around the place, and inside parentheses the place is a later one.
-/

namespace ParseEngine.Calculator

variable {st : Setting} {n m rank : Nat} {e : Expr} {c d : Cursor} {s t : Session} {o : Outcome} {level : Level}
  {phrase : Phrase} {text taken rest : List Char} {a x : Float}

theorem Parses.refused (remains : c.remaining = .ok text) (refuses : Refuses phrase text)
    (failed : o.isSuccess = false) : Parses phrase c o :=
  ⟨text, remains, .inr ⟨refuses, failed⟩⟩

theorem Parses.takes (remains : c.remaining = .ok text) (takes : Takes phrase text taken x) :
    Parses phrase c (.success (.float x) (c.past taken)) :=
  ⟨text, remains, .inl ⟨taken, x, takes, rfl⟩⟩

theorem stops_or_begins (kind : Char → Bool) (text : List Char) :
    Numeral.Stops kind text ∨ ∃ ch rest, text = ch :: rest ∧ kind ch = true := by
  cases text with
  | nil => exact .inl .nil
  | cons ch rest =>
      cases first : kind ch with
      | false => exact .inl (.cons first)
      | true => exact .inr ⟨ch, rest, rfl, first⟩

/-- No rule is in flight after an index, and none of the first ones at it. -/
structure Free (s : Session) (rank i : Nat) : Prop where
  after : ∀ r j, i < j → s.growing.lookup ⟨.rule r, j⟩ = none
  here : ∀ r < rank, s.growing.lookup ⟨.rule r, i⟩ = none

namespace Free
variable {i j : Nat}

theorem congr (free : Free s rank i) (same : t.growing = s.growing) : Free t rank i :=
  ⟨same ▸ free.after, same ▸ free.here⟩

theorem later (free : Free s rank i) (rank' : Nat) (lt : i < j) : Free s rank' j :=
  ⟨fun r k beyond => free.after r k (Nat.lt_trans lt beyond), fun r _ => free.after r j lt⟩

theorem inside {growth : Growth} (free : Free s (rank + 1) i)
    (top : t.growing = (⟨.rule rank, i⟩, growth) :: s.growing) : Free t rank i := by
  refine ⟨fun r j beyond => ?_, fun r lower => ?_⟩
  · have other : (⟨.rule r, j⟩ : Key) ≠ ⟨.rule rank, i⟩ := fun same => by
      cases same
      exact Nat.lt_irrefl _ beyond
    rw [top, List.lookup_cons, beq_eq_false_iff_ne.2 other]
    exact free.after r j beyond
  · have other : (⟨.rule r, i⟩ : Key) ≠ ⟨.rule rank, i⟩ := fun same => by
      cases same
      exact Nat.lt_irrefl _ lower
    rw [top, List.lookup_cons, beq_eq_false_iff_ne.2 other]
    exact free.here r (Nat.lt_succ_of_lt lower)

end Free

def Meets (st : Setting) (m n rank : Nat) (e : Expr) (phrase : Phrase) : Prop :=
  ∀ c s, c.Fits st → Ready st s → Free s rank c.index → Text.byteLength st.text < c.index + m →
    Ensures st n e c s (Parses phrase c)

section Factor

theorem token_success {ch : Char} {blanks : List Char} (fits : c.Fits st) (ready : Ready st s)
    (remains : c.remaining = .ok (ch :: (blanks ++ rest))) (blank : Blank blanks)
    (stops : Numeral.Stops Text.isBlank rest) :
    Ensures st 3 (token ch) c s (· = .success (.char ch) (c.past (ch :: blanks))) := by
  have ran : (Prim.char ch).run c = .ok (.success (.char ch) (c.past [ch])) :=
    one_success fits remains (beq_self_eq_true ch)
  exact lexeme_success fits ready ran remains blank stops

theorem token_failure {ch : Char} (ready : Ready st s) (remains : c.remaining = .ok text)
    (stops : Numeral.Stops (· == ch) text) : Ensures st 3 (token ch) c s (·.isSuccess = false) := by
  obtain ⟨message, found, ran⟩ : ∃ message found, (Prim.char ch).run c = .ok (.failure message c found) :=
    one_failure remains stops
  refine (lexeme_failure ready ran).weaken ?_
  rintro _ rfl
  rfl

variable (fits : c.Fits st) (ready : Ready st s) (remains : c.remaining = .ok text)
include fits ready remains

theorem number_ensures : Ensures st 3 (.lexeme (.prim .number)) c s fun o =>
    (o.isSuccess = true ∧ Parses .factor c o) ∨
      (Numeral.number? text = none ∧ ∃ message found, o = .failure message c found) := by
  cases read : Numeral.number? text with
  | none =>
      obtain ⟨message, found, ran⟩ := number_failure remains read
      exact (lexeme_failure ready ran).weaken fun o same => .inr ⟨rfl, message, found, same⟩
  | some result =>
      obtain ⟨numeral, x⟩ := result
      obtain ⟨rest, rfl⟩ := Numeral.number?_leads read
      obtain ⟨blanks, rest, rfl, blank, stops⟩ := split_blanks rest
      have ran := number_success fits remains read
      refine (lexeme_success fits ready ran remains blank stops).weaken ?_
      rintro _ rfl
      exact .inl ⟨rfl, .takes remains (.number read rfl blank stops)⟩

omit fits ready in
theorem closing_ensures {before inner after : List Char} (unread : Numeral.number? text = none)
    (split : text = '(' :: (before ++ (inner ++ after))) (blank : Blank before)
    (stops : Numeral.Stops Text.isBlank (inner ++ after)) (takes : Takes (.chain .sum) (inner ++ after) inner x)
    (fits : d.Fits st) (ready : Ready st t) (here : d = c.past ('(' :: (before ++ inner)))
    (remains' : d.remaining = .ok after) :
    Ensures st 3 (token ')') d t fun o => Parses .factor c (o.map fun _ => .float x) := by
  rcases stops_or_begins (· == ')') after with unclosed | ⟨ch, rest, rfl, isClosing⟩
  · refine (token_failure ready remains' unclosed).weaken fun o failed => ?_
    refine .refused remains (.unclosed unread split blank stops takes rfl unclosed) ?_
    rw [Outcome.isSuccess_map]
    exact failed
  · cases beq_iff_eq.1 isClosing
    obtain ⟨blanks, rest, rfl, blankAfter, stopsAfter⟩ := split_blanks rest
    refine (token_success fits ready remains' blankAfter stopsAfter).weaken ?_
    rintro _ rfl
    have parses := Parses.takes remains (.parens unread split blank stops takes rfl blankAfter stopsAfter)
    have same : d.past (')' :: blanks) = c.past ('(' :: (before ++ (inner ++ ')' :: blanks))) := by
      rw [here, Cursor.past_append]
      simp
    rw [← same] at parses
    exact parses

theorem parens_ensures (free : Free s 0 c.index) (short : Text.byteLength st.text < c.index + (m + 1))
    (unread : Numeral.number? text = none) (enough : 2 ≤ n) (inside : Meets st m n 2 (expression 0) (.chain .sum)) :
    Ensures st (n + 5) (.between (token '(') (.adapt .forward (expression 0)) (token ')')) c s (Parses .factor c) := by
  rcases stops_or_begins (· == '(') text with stops | ⟨ch, rest, rfl, isOpening⟩
  · have unopened := (token_failure ready remains stops).more (m := n + 1) (by omega)
    refine .skip (P := (·.isSuccess = false))
      (.skipThen unopened (fun _ _ _ failed => by cases failed) fun _ _ _ failed => failed)
      (fun _ _ _ failed => by cases failed) fun _ _ _ _ => ?_
    exact .refused remains (.unopened unread stops) rfl
  · cases beq_iff_eq.1 isOpening
    obtain ⟨before, rest, rfl, blank, stops⟩ := split_blanks rest
    have opened := (token_success fits ready remains blank stops).more (m := n + 1) (by omega)
    have remains' : c.remaining = .ok ('(' :: before ++ rest) := remains
    obtain ⟨-, fitsInside, remainsInside⟩ := fits.past remains'
    have moved : c.index < (c.past ('(' :: before)).index := c.lt_past (List.cons_ne_nil _ _)
    refine .skip (P := Parses (.chain .sum) (c.past ('(' :: before)))
      (.skipThen opened (fun _ _ t same ready' growing => ?_) fun _ _ _ same => by cases same)
      (fun v d t parses ready' growing => ?_) fun message d found parses => ?_
    · -- behind the parenthesis no level is in flight yet
      cases same
      refine .adapt (inside _ t fitsInside ready' ((free.congr growing).later 2 moved) (by omega)) ?_
      exact fun o parses => ⟨o, rfl, parses⟩
    · obtain ⟨_, same, ⟨inner, x, takes, result⟩ | ⟨-, failed⟩⟩ := parses
      · rw [remainsInside] at same
        cases same
        cases result
        obtain ⟨after, rfl⟩ := takes.leads
        obtain ⟨-, fitsAfter, remainsAfter⟩ := fitsInside.past remainsInside
        refine (closing_ensures remains unread rfl blank stops takes fitsAfter ready' ?_ remainsAfter).more (by omega)
        rw [Cursor.past_append]
        rfl
      · cases failed
    · obtain ⟨_, same, ⟨inner, x, takes, result⟩ | ⟨refuses, -⟩⟩ := parses
      · cases result
      · rw [remainsInside] at same
        cases same
        exact .refused remains (.empty unread rfl blank stops refuses) rfl

omit remains in
theorem factor_ensures (free : Free s 0 c.index) (short : Text.byteLength st.text < c.index + (m + 1))
    (enough : 2 ≤ n) (inside : Meets st m n 2 (expression 0) (.chain .sum)) :
    Ensures st (n + 7) (factor 0) c s (Parses .factor c) := by
  obtain ⟨-, text, remains, -, -⟩ := fits.remaining
  refine .adapt (P := Parses .factor c) ?_ ?_
  · refine .orElse ((number_ensures fits ready remains).more (by omega))
      (fun v d number => ?_) (fun message d found number moved => ?_)
      fun message d found t number _ ready' growing => ?_
    · rcases number with ⟨-, parses⟩ | ⟨-, _, _, same⟩
      · exact parses
      · cases same
    · rcases number with ⟨succeeds, -⟩ | ⟨-, _, _, same⟩
      · cases succeeds
      · cases same
        exact absurd rfl moved
    · rcases number with ⟨succeeds, -⟩ | ⟨unread, -⟩
      · cases succeeds
      · exact parens_ensures fits ready' remains (free.congr growing) short unread enough inside
  · rintro o ⟨text, remains, ⟨taken, x, takes, rfl⟩ | ⟨refuses, failed⟩⟩
    · exact ⟨_, rfl, .takes remains takes⟩
    · cases o with
      | success v d => cases failed
      | failure message d found => exact ⟨_, rfl, .refused remains refuses rfl⟩

end Factor

def Level.symbols : Level → String
  | .product => "*/"
  | .sum => "+-"

def Level.part : Level → Expr
  | .product => factor 0
  | .sum => term 0

def Level.rule (level : Level) : Rule :=
  Calculator.level level.number level.symbols level.part

def Level.round (level : Level) : Expr :=
  .adapt (.map applyValue) (.pair
    (.pair (.adapt .forward (.rule level.number)) (.lexeme (.prim (.oneOf level.symbols)))) level.part)

theorem Level.body_eq (level : Level) : level.rule.body = .orElse level.round level.part := rfl

theorem Level.found (level : Level) : grammar.rules[level.number]? = some level.rule := by
  cases level <;> rfl

theorem Level.symbols_toList (level : Level) : level.symbols.toList = level.operators := by
  cases level <;> decide

theorem interceptFree (simple : e.isSimple) : grammar.InterceptFree e :=
  .of_isSimple (by decide) simple

theorem Level.body_simple (level : Level) : level.rule.body.isSimple := by
  cases level <;> decide

theorem Level.part_simple (level : Level) : level.part.isSimple := by
  cases level <;> decide

def Operates (level : Level) (c : Cursor) (text taken : List Char) (a : Float) (o : Outcome) : Prop :=
  (∃ op before rest, text = taken ++ op :: (before ++ rest) ∧ op ∈ level.operators ∧ Blank before ∧
      Numeral.Stops Text.isBlank rest ∧ o = .success (.pair (.float a) (.char op)) (c.past (taken ++ op :: before))) ∨
    Takes (.chain level) text taken a ∧ o.isSuccess = false ∧ c.index < o.index

def Adds (level : Level) (c : Cursor) (text taken : List Char) (a : Float) (o : Outcome) : Prop :=
  (∃ more b, more ≠ [] ∧ Grown level text (taken ++ more) b ∧ o = .success (.float b) (c.past (taken ++ more))) ∨
    Takes (.chain level) text taken a ∧ o.isSuccess = false ∧ c.index < o.index

section Pass
variable {growth : Growth} (ready : Ready st s)
  (inFlight : s.growing.lookup ⟨.rule level.number, c.index⟩ = some growth)
include ready inFlight

theorem seed_ensures : Ensures st 2 (.adapt .forward (.rule level.number)) c s (· = growth.seed) := by
  refine .adapt (P := (· = growth.seed)) (fun fuel enough => ?_) fun o same => ⟨o, rfl, same⟩
  obtain ⟨fuel, rfl⟩ := Nat.exists_eq_add_of_le' enough
  rw [Grammar.run_leftRecursive level.found fuel rfl, Runner.leftRecursive_seed _ _ inFlight]
  exact ⟨growth.seed, s.reread growth, rfl, rfl, ready.congr rfl rfl rfl, rfl⟩

theorem round_seeding {message found : String} (seed : growth.seed = .failure message c found) :
    Ensures st 5 level.round c s (· = .failure message c found) := by
  have read := seed_ensures ready inFlight
  rw [seed] at read
  refine .map (.pair (P := (· = .failure message c found)) (.pair read ?_ ?_) ?_ ?_)
  · rintro _ _ _ same
    cases same
  · exact fun _ _ _ same => same
  · rintro _ _ _ same
    cases same
  · rintro _ _ _ same
    cases same
    rfl

variable (fits : c.Fits st) (seed : growth.seed = .success (.float a) (c.past taken))
  (remains : c.remaining = .ok (taken ++ rest)) (nonempty : taken ≠ []) (grown : Grown level (taken ++ rest) taken a)
include fits seed remains nonempty grown

theorem operator_ensures :
    Ensures st 4 (.pair (.adapt .forward (.rule level.number)) (.lexeme (.prim (.oneOf level.symbols)))) c s
      (Operates level c (taken ++ rest) taken a) := by
  have read := ((seed_ensures ready inFlight).weaken fun _ same => same.trans seed).more (m := 3) (by omega)
  obtain ⟨-, fitsSeed, remainsSeed⟩ := fits.past remains
  refine .pair read (fun v d t same ready' _ => ?_) fun _ _ _ same => by cases same
  cases same
  rcases stops_or_begins (level.operators.contains ·) rest with stops | ⟨op, rest, rfl, isOperator⟩
  · obtain ⟨message, found, ran⟩ : ∃ message found,
        (Prim.oneOf level.symbols).run (c.past taken) = .ok (.failure message (c.past taken) found) := by
      rw [← level.symbols_toList] at stops
      exact one_failure remainsSeed stops
    refine (lexeme_failure ready' ran).weaken ?_
    rintro _ rfl
    exact .inr ⟨grown.no_operator rfl stops, rfl, c.lt_past nonempty⟩
  · obtain ⟨before, rest, rfl, blank, stops⟩ := split_blanks rest
    have ran : (Prim.oneOf level.symbols).run (c.past taken) =
        .ok (.success (.char op) ((c.past taken).past [op])) := by
      rw [← level.symbols_toList] at isOperator
      exact one_success fitsSeed remainsSeed isOperator
    refine (lexeme_success fitsSeed ready' ran remainsSeed blank stops).weaken ?_
    rintro _ rfl
    refine .inl ⟨op, before, rest, rfl, by simpa using isOperator, blank, stops, ?_⟩
    rw [Cursor.past_append]
    rfl

variable (free : Free s level.number c.index) (short : Text.byteLength st.text < c.index + m)
  (operand : Meets st m n level.number level.part level.operand)
include free short operand

theorem round_growing (enough : 4 ≤ n) : Ensures st (n + 2) level.round c s (Adds level c (taken ++ rest) taken a) := by
  have operated := operator_ensures ready inFlight fits seed remains nonempty grown
  refine .map (.pair (operated.more enough) (fun v d t operates ready' growing => ?_)
    fun message d found operates => ?_)
  · rcases operates with ⟨op, before, rest', split, operator, blank, stops, same⟩ | ⟨-, failed, -⟩
    · cases same
      have moved : c.index < (c.past (taken ++ op :: before)).index := c.lt_past (by simp)
      have remains' : c.remaining = .ok (taken ++ op :: before ++ rest') := by rw [remains, split]; simp
      obtain ⟨-, fitsOperand, remainsOperand⟩ := fits.past remains'
      have part := operand _ t fitsOperand ready' ((free.congr growing).later _ moved) (by omega)
      refine (part.follows (interceptFree level.part_simple) fitsOperand ready').weaken ?_
      rintro _ ⟨⟨_, same, ⟨piece, b, takes, rfl⟩ | ⟨refuses, failed⟩⟩, follows⟩
      · rw [remainsOperand] at same
        cases same
        refine .inl ⟨op :: (before ++ piece), apply op a b, List.cons_ne_nil _ _, ?_, ?_⟩
        · exact grown.round split operator blank stops takes
        · rw [Cursor.past_append]
          simp [Outcome.map, applyValue]
      · rw [remainsOperand] at same
        cases same
        refine .inr ⟨grown.no_operand split operator blank stops refuses, ?_, ?_⟩
        · rw [Outcome.isSuccess_map, Outcome.isSuccess_map]
          exact failed
        · rw [Outcome.index, Outcome.cursor_map, Outcome.cursor_map]
          exact Nat.lt_of_lt_of_le moved follows.le
    · cases failed
  · rcases operates with ⟨_, _, _, _, _, _, _, same⟩ | ended
    · cases same
    · exact .inr ended

theorem next_pass (enough : 4 ≤ n) :
    Ensures st (n + 3) level.rule.body c s (Adds level c (taken ++ rest) taken a) := by
  have round := round_growing ready inFlight fits seed remains nonempty grown free short operand enough
  rw [level.body_eq]
  refine .orElse round (fun _ _ adds => adds) (fun _ _ _ adds _ => adds) fun message d found t adds here => ?_
  rcases adds with ⟨_, _, _, _, same⟩ | ⟨-, -, moved⟩
  · cases same
  · exact absurd here (Nat.ne_of_gt moved)

omit seed remains nonempty grown in
theorem first_pass {message found : String} (seed : growth.seed = .failure message c found) (enough : 4 ≤ n) :
    Ensures st (n + 3) level.rule.body c s (Parses level.operand c) := by
  have round := (round_seeding ready inFlight seed).more (m := n + 2) (by omega)
  rw [level.body_eq]
  refine .orElse round (fun _ _ same => by cases same) (fun _ d _ same moved => ?_) fun _ _ _ t _ _ ready' growing => ?_
  · cases same
    exact absurd rfl moved
  · exact (operand c t fits ready' (free.congr growing) short).more (by omega)

end Pass

theorem improves_of_failed (failed : o.isSuccess = false) (seed : Outcome) : Runner.improves o seed = false := by
  cases o with
  | success v d => cases failed
  | failure message d found => rfl

def Grows (st : Setting) (level : Level) (c : Cursor) (s : Session) (x : Except Halt (Outcome × Session)) : Prop :=
  ∃ o t growth, x = .ok (o, t) ∧ Parses (.chain level) c o ∧ o.Follows st c.index ∧ Ready st t ∧
    t.growing = (⟨.rule level.number, c.index⟩, growth) :: s.growing

section Growth
variable {cap left grown fuel : Nat} (fits : c.Fits st) (free : Free s (level.number + 1) c.index)
  (short : Text.byteLength st.text < c.index + m) (enough : 4 ≤ n)
  (operand : Meets st m n level.number level.part level.operand) (fueled : n + 3 ≤ fuel)
include fits free short enough operand fueled

theorem growFrom_grows {depth : Nat} (ready : Ready st t)
    (top : t.growing =
      (⟨.rule level.number, c.index⟩, ⟨.success (.float a) (c.past taken), .growing, depth⟩) :: s.growing)
    (remains : c.remaining = .ok (taken ++ rest)) (nonempty : taken ≠ []) (chain : Grown level (taken ++ rest) taken a)
    (rounds : Text.byteLength rest < left) (uncapped : grown + Text.byteLength rest < cap) :
    Grows st level c s
      (Runner.growFrom (.rule level.number) cap (grammar.run fuel level.rule.body) left grown c t) := by
  have idle := free.here level.number (Nat.lt_succ_self _)
  -- each round takes an operator at least, so the rounds end before the passes do
  induction left generalizing grown taken rest a t with
  | zero => exact absurd rounds (Nat.not_lt_zero _)
  | succ left ih =>
      have inFlight : t.counted.growing.lookup ⟨.rule level.number, c.index⟩ =
          some ⟨.success (.float a) (c.past taken), .growing, depth⟩ := by
        rw [Session.counted, top, List.lookup_cons_self]
      have ready' : Ready st t.counted := ready.congr rfl rfl rfl
      have pass := next_pass ready' inFlight fits rfl remains nonempty chain (free.inside top) short operand enough
      obtain ⟨o, u, ran, ⟨adds, follows⟩, readyAfter, growing⟩ :=
        pass.follows (interceptFree level.body_simple) fits ready' fuel fueled
      have topAfter : u.growing = _ := growing.trans top
      have inFlightAfter := growing ▸ inFlight
      rw [Runner.growFrom_succ, ran, ok_bind]
      rcases adds with ⟨more, b, nonempty', chain', rfl⟩ | ⟨takes, failed, -⟩
      · obtain ⟨rest', split⟩ := chain'.leads
        rw [← split] at remains chain'
        have size := congrArg Text.byteLength split
        have positive := Text.byteLength_pos nonempty'
        simp only [Text.byteLength_append] at size
        have better : Runner.improves (.success (.float b) (c.past (taken ++ more)))
            (.success (.float a) (c.past taken)) = true := by
          simp only [Runner.improves, Cursor.past, Text.byteLength_append, decide_eq_true_eq]
          omega
        have goesOn : grown + 1 < cap := by omega
        obtain ⟨note, turned⟩ := Runner.turn_goesOn inFlightAfter better goesOn
        rw [turned]
        have readyNext := (readyAfter.annotate note).grow topAfter idle follows
        exact ih readyNext (Session.grow_growing topAfter idle) remains (by simp [nonempty]) chain' (by omega)
          (show grown + 1 + _ < cap by omega)
      · rw [Runner.turn_stops inFlightAfter (improves_of_failed failed _)]
        refine ⟨_, u, _, rfl, .takes remains takes, ?_, readyAfter, topAfter⟩
        exact ⟨(fits.past remains).2.1, Nat.le_add_right _ _⟩

theorem begin_grows {message found : String} {depth : Nat} (ready : Ready st t)
    (top : t.growing = (⟨.rule level.number, c.index⟩, ⟨.failure message c found, .seeding, depth⟩) :: s.growing)
    (remains : c.remaining = .ok text) (uncapped : Text.byteLength text < cap) :
    Grows st level c s
      (Runner.growFrom (.rule level.number) cap (grammar.run fuel level.rule.body) (cap + 1) 0 c t) := by
  have idle := free.here level.number (Nat.lt_succ_self _)
  have inFlight : t.counted.growing.lookup ⟨.rule level.number, c.index⟩ =
      some ⟨.failure message c found, .seeding, depth⟩ := by
    rw [Session.counted, top, List.lookup_cons_self]
  have ready' : Ready st t.counted := ready.congr rfl rfl rfl
  have pass := first_pass ready' inFlight fits (free.inside top) short operand rfl enough
  obtain ⟨o, u, ran, ⟨⟨_, same, parses⟩, follows⟩, readyAfter, growing⟩ :=
    pass.follows (interceptFree level.body_simple) fits ready' fuel fueled
  rw [remains] at same
  cases same
  have topAfter : u.growing = _ := growing.trans top
  have inFlightAfter := growing ▸ inFlight
  rw [Runner.growFrom_succ, ran, ok_bind]
  rcases parses with ⟨taken, a, takes, rfl⟩ | ⟨refuses, failed⟩
  · obtain ⟨rest, rfl⟩ := takes.leads
    rw [Text.byteLength_append] at uncapped
    have better : Runner.improves (.success (.float a) (c.past taken)) (.failure message c found) = true := rfl
    have goesOn : 0 < cap := by omega
    obtain ⟨note, turned⟩ := Runner.turn_goesOn inFlightAfter better goesOn
    rw [turned]
    have readyNext := (readyAfter.annotate note).grow topAfter idle follows
    exact growFrom_grows fits free short enough operand fueled readyNext (Session.grow_growing topAfter idle) remains
      takes.reads.operand_ne_nil (.operand takes) (by omega) (show 0 + _ < cap by omega)
  · rw [Runner.turn_stops inFlightAfter (improves_of_failed failed _)]
    exact ⟨_, u, _, rfl, .refused remains refuses.chain failed, follows, readyAfter, topAfter⟩

theorem leftRecursive_grows (ready : Ready st s)
    (miss : (s.memo.lookup ⟨.rule level.number, c.index⟩).bind (·.outcome? c.context.isSome) = none) :
    ∃ o t, Runner.leftRecursive (.rule level.number) level.rule.title (grammar.run fuel level.rule.body) c s =
      .ok (o, t) ∧ Parses (.chain level) c o ∧ Ready st t ∧ t.growing = s.growing := by
  have idle := free.here level.number (Nat.lt_succ_self _)
  obtain ⟨-, text, remains, -, -⟩ := fits.remaining
  obtain ⟨start, alike, grows⟩ := Runner.leftRecursive_grow level.rule.title remains idle miss
  have cap : Runner.growthCap s.options text = Text.byteLength text + 1 := by
    rw [Runner.growthCap, ready.unbounded]
    rfl
  have unknown (plain : st.plain) (closed : st.closed) : start.memo.lookup ⟨.rule level.number, c.index⟩ = none := by
    rw [alike.memo]
    exact Runner.miss_unknown ready.sound fits plain closed miss
  have started : Ready st start := ready.congr alike.options alike.memo alike.growing
  have begun := started.begin ⟨_, _, rfl, level.found, rfl⟩ unknown
    (Runner.firstSeed_follows fits level.rule.title text)
  have top : (start.begin ⟨.rule level.number, c.index⟩ (Runner.firstSeed level.rule.title c text)).growing =
      (⟨.rule level.number, c.index⟩, ⟨Runner.firstSeed level.rule.title c text, .seeding, s.growing.length⟩) ::
        s.growing := by
    rw [Session.begin, alike.growing]
    rfl
  obtain ⟨o, t, growth, ran, parses, follows, ended, top'⟩ :=
    begin_grows fits free short enough operand fueled begun top remains (Nat.lt_succ_self _)
  have popped := Session.finish_growing top' idle
  refine ⟨o, s.kept (t.finish ⟨.rule level.number, c.index⟩) ⟨.rule level.number, c.index⟩ o, ?_, parses, ?_, ?_⟩
  · rw [grows, cap, ran]
    rfl
  · refine (ended.finish ready top' idle).kept fits follows ?_ parses
    rw [popped]
    exact idle
  · rw [Session.kept_growing, popped]

end Growth

theorem level_meets (level : Level) (enough : 4 ≤ n) (operand : Meets st m n level.number level.part level.operand) :
    Meets st m (n + 4) (level.number + 1) (.rule level.number) (.chain level) := by
  intro c s fits ready free short fuel fueled
  obtain ⟨fuel, rfl⟩ := Nat.exists_eq_add_of_le' (Nat.le_trans (Nat.le_add_left 1 (n + 3)) fueled)
  rw [Grammar.run_leftRecursive level.found fuel rfl]
  cases known : (s.memo.lookup ⟨.rule level.number, c.index⟩).bind (·.outcome? c.context.isSome) with
  | some o =>
      have idle := free.here level.number (Nat.lt_succ_self _)
      obtain ⟨t, alike, ran⟩ := Runner.leftRecursive_hit level.rule.title (grammar.run fuel level.rule.body) idle known
      obtain ⟨entry, found, read⟩ := Option.bind_eq_some_iff.1 known
      rw [Entry.eq_of_outcome? read] at found
      exact ⟨o, t, ran, ready.known level c o fits found, ready.congr alike.options alike.memo alike.growing,
        alike.growing⟩
  | none => exact leftRecursive_grows fits free short enough operand (Nat.le_of_succ_le_succ fueled) ready known

theorem named_meets {description : String} (part : Meets st m n rank e phrase) :
    Meets st m (n + 1) rank (.adapt (.describe description) e) phrase := by
  intro c s fits ready free short
  exact .adapt (part c s fits ready free short) fun o parses => ⟨o, rfl, parses⟩

theorem expression_meets (st : Setting) (m : Nat) : Meets st m (17 * m + 2) 2 (expression 0) (.chain .sum) := by
  -- inside parentheses less text remains
  induction m with
  | zero =>
      intro c s fits ready free short
      exact absurd fits.index_le (by omega)
  | succ m ih =>
      have factors : Meets st (m + 1) (17 * m + 9) 0 (factor 0) .factor := fun c s fits ready free short =>
        factor_ensures fits ready free short (by omega) ih
      have terms : Meets st (m + 1) (17 * m + 14) 1 (term 0) (.chain .product) :=
        named_meets (level_meets .product (by omega) factors)
      exact named_meets (level_meets .sum (by omega) terms)

theorem isAtEnd_iff (first second : List Char) :
    ((Cursor.start (first ++ second) none).past first).isAtEnd ↔ second = [] := by
  cases second with
  | nil => simp [Cursor.isAtEnd, Cursor.length, Cursor.past, Cursor.start]
  | cons ch rest =>
      have positive := ch.utf8Size_pos
      simp only [Cursor.isAtEnd, Cursor.length, Cursor.past, Cursor.start, Text.byteLength_append, Text.byteLength_cons,
        decide_eq_true_eq, reduceCtorEq, iff_false]
      omega

section Whole
variable {blanks : List Char} (split : text = blanks ++ rest) (blank : Blank blanks)
  (stops : Numeral.Stops Text.isBlank rest)
include split blank stops

theorem calculator_ensures : Ensures ⟨text, true, true⟩ (fuelFor text) (calculator 0) (.start text none) (.fresh {} {})
    fun o => (∃ taken x, Takes (.chain .sum) rest taken x ∧
        o = .success (.float x) ((Cursor.start text none).past (blanks ++ taken))) ∨
      Refuses (.chain .sum) rest ∧ o.isSuccess = false := by
  let st : Setting := ⟨text, true, true⟩
  have whole : Text.dropBytes? 0 text = some text := Text.dropBytes?_append [] text
  have fits : (Cursor.start text none).Fits st := ⟨rfl, Option.isSome_iff_exists.2 ⟨text, whole⟩, fun _ => rfl⟩
  have remains : (Cursor.start text none).remaining = .ok (blanks ++ rest) := by
    rw [← split, Cursor.remaining, Cursor.start, whole]
  obtain ⟨-, fitsAfter, remainsAfter⟩ := fits.past remains
  have ready : Ready st (.fresh {} {}) := .fresh rfl {} rfl
  have spaces := (Ensures.ofPrim (spaces_success fits remains blank stops) ready).more
    (m := 17 * (Text.byteLength text + 1) + 2) (by omega)
  refine (Ensures.skipThen spaces (fun _ _ t same ready' growing => ?_) fun _ _ _ same => by cases same).more
    (by simp only [fuelFor]; omega)
  cases same
  have free : Free t 2 ((Cursor.start text none).past blanks).index := by
    refine ⟨fun r j _ => ?_, fun r _ => ?_⟩ <;> rw [growing] <;> rfl
  have short : Text.byteLength text < ((Cursor.start text none).past blanks).index + (Text.byteLength text + 1) := by
    omega
  refine (expression_meets st _ _ t fitsAfter ready' free short).weaken ?_
  rintro o ⟨_, same, parses⟩
  rw [remainsAfter] at same
  cases same
  simpa only [Cursor.past_append] using parses

end Whole

theorem evaluate_success (ran : grammar.run (fuelFor text) (calculator 0) (.start text none) (.fresh {} {}) =
      .ok (.success (.float x) c, t)) :
    ∃ s, evaluate text {} = .ok (if c.isAtEnd then .ok x else .error (.stoppedAt text c.index), s) := by
  simp only [evaluate, Grammar.parseWith, ran, ok_bind, conclude]
  cases c.isAtEnd <;> exact ⟨_, rfl⟩

theorem evaluate_failure {message found : String}
    (ran : grammar.run (fuelFor text) (calculator 0) (.start text none) (.fresh {} {}) =
      .ok (.failure message c found, t)) :
    ∃ s, evaluate text {} = .ok (.error (.parseFailure text c.index message found), s) := by
  simp only [evaluate, Grammar.parseWith, ran, ok_bind, conclude]
  exact ⟨_, rfl⟩

/-- The calculator gives a text a value exactly if the text is an expression after some blanks, and then the value is
that of the expression. -/
theorem evaluate_ok_iff_accepts (text : List Char) :
    ∃ result s, evaluate text {} = .ok (result, s) ∧ ∀ x, result = .ok x ↔ Accepts text x := by
  obtain ⟨blanks, rest, split, blank, stops⟩ := split_blanks text
  obtain ⟨o, t, ran, parses, -⟩ := calculator_ensures split blank stops (fuelFor text) (Nat.le_refl _)
  rcases parses with ⟨taken, y, takes, rfl⟩ | ⟨refuses, failed⟩
  · obtain ⟨s, evaluated⟩ := evaluate_success ran
    refine ⟨_, s, evaluated, fun x => ?_⟩
    obtain ⟨after, rfl⟩ := takes.leads
    rw [accepts_iff split blank stops, takes.reads_iff]
    rw [← List.append_assoc] at split
    subst split
    simp only [isAtEnd_iff]
    by_cases nothing : after = []
    · simp only [nothing, if_true, true_and, Except.ok.injEq]
      exact eq_comm
    · simp only [nothing, if_false, false_and, reduceCtorEq]
  · cases o with
    | success v d => cases failed
    | failure message d found =>
        obtain ⟨s, evaluated⟩ := evaluate_failure ran
        refine ⟨_, s, evaluated, fun x => ?_⟩
        rw [accepts_iff split blank stops]
        simp only [refuses.not_reads, reduceCtorEq]

end ParseEngine.Calculator
