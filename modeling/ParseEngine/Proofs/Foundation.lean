import ParseEngine.Proofs.Settlement

/-!
The memo table as a history.

Entries are only put in front of the memo table, so every earlier table of a parse is a suffix of it. It is founded if
no key is written twice and the outcome of a memoized rule is permanent where the entries behind it are remembered.

Over one founded table, two runs of an expression can be compared: the second has nothing in flight and finds all that
it needs, and the first starts with less. If the first reads no seed in flight, it writes nothing that the second does
not have. Hence a memoized rule is not remembered while its own body runs to an outcome that will be.
-/

namespace ParseEngine

/-- An outcome of a memoized rule is one of its body, wherever the older entries are remembered. -/
def Grammar.Rests (g : Grammar) (st : Setting) (key : Key) (entry : Entry) (older : List (Key × Entry)) : Prop :=
  ∀ r rule c o, g.rules[r]? = some rule → rule.mode = .memo → c.Fits st → key = ⟨.rule r, c.index⟩ →
    entry = .outcome o → g.Permanent st older rule.body c o

def Grammar.Founded (g : Grammar) (st : Setting) : List (Key × Entry) → Prop
  | [] => True
  | (key, entry) :: older => older.lookup key = none ∧ g.Rests st key entry older ∧ g.Founded st older

variable {g : Grammar} {st : Setting} {e : Expr} {r : Nat} {rule : Rule} {c : Cursor} {s t u w w' : Session}
  {o o' : Outcome} {memo whole older older' : List (Key × Entry)} {key : Key} {entry entry' : Entry} {fuel fuel' : Nat}

theorem Session.kept_top (unread : u.readsBelow s.growing.length = false) (unknown : u.memo.lookup key = none) :
    (s.kept u key o).memo = (key, .outcome o) :: u.memo := by
  simp [kept_memo, unread, remembers_eq_false.2 unknown]

theorem Session.remembers_kept (s t : Session) (key : Key) (o : Outcome) (other : Key) :
    (s.kept t key o).remembers other =
      (t.remembers other || !t.readsBelow s.growing.length && decide (other = key)) := by
  rw [remembers, kept_memo]
  cases t.readsBelow s.growing.length with
  | true => simp [remembers]
  | false =>
      by_cases same : other = key
      · subst same
        cases known : t.remembers other with
        | true => simpa [remembers] using known
        | false => simp
      · cases known : t.remembers key with
        | true => simp [remembers, same]
        | false => simp [remembers, same, List.lookup_cons, beq_eq_false_iff_ne.2 same]

theorem Session.place_of_lookup (known : memo.lookup key = some entry) : ∃ older, (key, entry) :: older <:+ memo := by
  obtain ⟨newer, older, rfl, -⟩ := List.lookup_eq_some_iff.1 known
  exact ⟨older, newer, rfl⟩

namespace Grammar
namespace Founded

theorem suffix (founded : g.Founded st whole) (inside : memo <:+ whole) : g.Founded st memo := by
  obtain ⟨newer, rfl⟩ := inside
  induction newer with
  | nil => exact founded
  | cons entry newer ih => exact ih founded.2.2

theorem lookup (founded : g.Founded st whole) (inside : memo <:+ whole) (known : memo.lookup key = some entry) :
    whole.lookup key = some entry := by
  obtain ⟨newer, rfl⟩ := inside
  induction newer with
  | nil => exact known
  | cons top newer ih =>
      have below := ih founded.2.2
      have unknown : (newer ++ memo).lookup top.1 = none := founded.1
      have differs : key ≠ top.1 := by
        rintro rfl
        rw [unknown] at below
        cases below
      rw [List.cons_append, List.lookup_cons, beq_eq_false_iff_ne.2 differs]
      exact below

theorem place (founded : g.Founded st whole) (first : (key, entry) :: older <:+ whole)
    (second : (key, entry') :: older' <:+ whole) : (key, entry) :: older = (key, entry') :: older' := by
  -- the longer of two places would hold the key twice
  have same {entry entry' : Entry} {older older' : List (Key × Entry)} (longer : (key, entry') :: older' <:+ whole)
      (inside : (key, entry) :: older <:+ (key, entry') :: older') :
      (key, entry) :: older = (key, entry') :: older' := by
    obtain ⟨unknown, -, founded'⟩ := founded.suffix longer
    rcases List.suffix_cons_iff.1 inside with same | below
    · exact same
    · rw [founded'.lookup below List.lookup_cons_self] at unknown
      cases unknown
  rcases List.suffix_or_suffix_of_suffix first second with inside | inside
  · exact same second inside
  · exact (same first inside).symm

theorem before (founded : g.Founded st whole) (inside : memo <:+ whole) (place : (key, entry) :: older <:+ whole)
    (unknown : memo.lookup key = none) : memo <:+ older := by
  rcases List.suffix_or_suffix_of_suffix inside place with below | above
  · rcases List.suffix_cons_iff.1 below with rfl | below
    · rw [List.lookup_cons_self] at unknown
      cases unknown
    · exact below
  · rw [(founded.suffix inside).lookup above List.lookup_cons_self] at unknown
    cases unknown

theorem steady (founded : g.Founded st s.memo) : g.Steady st s := by
  intro r rule c o found mode fits known
  obtain ⟨older, place⟩ := Session.place_of_lookup known
  obtain ⟨-, rests, -⟩ := founded.suffix place
  have permanent := rests r rule c o found mode fits rfl rfl
  exact permanent.mono fun key entry known => founded.lookup ((List.suffix_cons _ older).trans place) known

end Founded

structure Extends (g : Grammar) (st : Setting) (s t : Session) : Prop where
  earlier : s.memo <:+ t.memo
  founded : g.Founded st t.memo

theorem Extends.of_memo (extension : g.Extends st s t) (same : u.memo = t.memo) : g.Extends st s u :=
  ⟨same ▸ extension.earlier, same ▸ extension.founded⟩

theorem Extends.trans (first : g.Extends st s t) (second : g.Extends st t u) : g.Extends st s u :=
  ⟨first.earlier.trans second.earlier, second.founded⟩

theorem Extends.refl (founded : g.Founded st s.memo) : g.Extends st s s :=
  ⟨List.suffix_rfl, founded⟩

theorem Extends.kept (extension : g.Extends st s u)
    (rests : u.readsBelow s.growing.length = false → g.Rests st key (.outcome o) u.memo) :
    g.Extends st s (s.kept u key o) := by
  by_cases old : u.readsBelow s.growing.length = true ∨ u.remembers key = true
  · refine extension.of_memo ?_
    rcases old with read | known
    · simp [Session.kept_memo, read]
    · simp [Session.kept_memo, known]
  · rw [not_or, Bool.not_eq_true, Bool.not_eq_true, Session.remembers_eq_false] at old
    obtain ⟨unread, unknown⟩ := old
    have top := Session.kept_top (s := s) (o := o) unread unknown
    exact ⟨top ▸ extension.earlier.trans (List.suffix_cons _ _), top ▸ ⟨unknown, rests unread, extension.founded⟩⟩

end Grammar

theorem Routine.Orderly.extended {D : Discipline} {α : Type} {P : α → Prop} {R : Routine α} (orderly : Orderly D P R)
    (free : ∀ e, D.parts e → g.InterceptFree e)
    (parts : ∀ e c (s : Session) o t, D.parts e → D.Allows c → s.Sound g D.setting → g.Founded D.setting s.memo →
      g.run fuel e c s = .ok (o, t) → g.Extends D.setting s t)
    (sound : s.Sound g D.setting) (founded : g.Founded D.setting s.memo) {a : α}
    (ran : R (g.run fuel) s = .ok (a, t)) : g.Extends D.setting s t := by
  let I (t : Session) : Prop := t.Sound g D.setting ∧ g.Extends D.setting s t
  have noted (t : Session) (f : Journal → Journal) : I t → I (t.annotate f) := fun ⟨sound, extension⟩ =>
    ⟨(Session.Alike.annotate t f).sound sound, extension.of_memo rfl⟩
  refine (orderly.keeps (I := I) noted ?_ ⟨sound, .refl founded⟩ ran).2.2
  rintro e c t o u part here ⟨sound, extension⟩ ran
  have advances := (Grammar.run_advances fuel e (fun _ => free e part) here.fits sound).result ran
  have further := parts e c t o u part here sound extension.founded ran
  exact ⟨advances.follows, advances.sound, extension.trans further⟩

namespace Grammar

section Rule
variable (found : g.rules[r]? = some rule) (plain : st.plain) (closed : st.closed) (fits : c.Fits st)
  (free : g.InterceptFree rule.body) (sound : s.Sound g st) (founded : g.Founded st s.memo)
  (body : ∀ (s : Session) o t, s.Sound g st → g.Founded st s.memo → g.run fuel rule.body c s = .ok (o, t) →
    g.Extends st s t)
include found plain closed fits free sound founded body

theorem memo_extends (ran : Runner.memo (.rule r) (g.run fuel rule.body) c s = .ok (o, t)) : g.Extends st s t := by
  cases known : (s.memo.lookup ⟨.rule r, c.index⟩).bind (·.outcome? c.context.isSome) with
  | some o' =>
      obtain ⟨u, alike, hit⟩ := Runner.memo_hit (g.run fuel rule.body) known
      rw [hit] at ran
      cases ran
      exact (Extends.refl founded).of_memo alike.memo
  | none =>
      obtain ⟨note, miss⟩ := Runner.memo_miss (g.run fuel rule.body) known
      rw [miss] at ran
      obtain ⟨⟨o', u⟩, evaluated, result⟩ := bind_eq_ok.1 ran
      cases result
      have sound' : s.missed.Sound g st := sound.congr rfl rfl
      have extension := body s.missed o' u sound' founded evaluated
      have steady : g.Steady st s.missed := Founded.steady founded
      have settled := (run_steady plain closed free fits sound' steady evaluated).2
      have extended : g.Extends st s (s.kept u ⟨.rule r, c.index⟩ o') := by
        refine Extends.kept ⟨extension.earlier, extension.founded⟩ ?_
        intro unread r' rule' c' o found' _ fits' same same'
        obtain ⟨sameRule, sameIndex⟩ := Key.mk.inj same
        cases sameRule
        cases same'
        rw [found] at found'
        cases found'
        cases fits.eq_of_index plain fits' sameIndex
        exact settled unread
      exact extended.of_memo rfl

theorem leftRecursive_extends (mode : rule.mode = .leftRecursive)
    (ran : Runner.leftRecursive (.rule r) rule.title (g.run fuel rule.body) c s = .ok (o, t)) :
    g.Extends st s t := by
  cases inFlight : s.growing.lookup ⟨.rule r, c.index⟩ with
  | some growth =>
      rw [Runner.leftRecursive_seed rule.title _ inFlight] at ran
      cases ran
      exact (Extends.refl founded).of_memo rfl
  | none =>
      cases known : (s.memo.lookup ⟨.rule r, c.index⟩).bind (·.outcome? c.context.isSome) with
      | some o' =>
          obtain ⟨u, alike, hit⟩ := Runner.leftRecursive_hit rule.title (g.run fuel rule.body) inFlight known
          rw [hit] at ran
          cases ran
          exact (Extends.refl founded).of_memo alike.memo
      | none =>
          obtain ⟨before, rest, remains, -, -⟩ := fits.remaining
          obtain ⟨start, alike, grows⟩ := Runner.leftRecursive_grow rule.title remains inFlight known
          rw [grows] at ran
          obtain ⟨⟨o', u⟩, grown, result⟩ := bind_eq_ok.1 ran
          cases result
          have pass (s : Session) (sound : s.Sound g st) := run_advances fuel rule.body (fun _ => free) fits sound
          have begun := (alike.sound (sound.congr rfl rfl)).begin ⟨r, rule, rfl, found, mode⟩
            (fun _ _ => by rw [alike.memo]; exact Runner.miss_unknown sound fits plain closed known)
            (Runner.firstSeed_follows fits rule.title rest)
          have extension : g.Extends st s u := by
            refine Runner.growFrom_keeps (I := g.Extends st s) inFlight pass ?_
              (fun t f extension => extension.of_memo rfl) (fun t o _ _ extension => extension.of_memo rfl) begun
              (.begin alike _ _) ((Extends.refl founded).of_memo alike.memo) grown
            intro t o u sound extension ran
            have further := body t.counted o u (sound.congr rfl rfl) extension.founded ran
            exact ⟨extension.earlier.trans further.earlier, further.founded⟩
          refine (extension.of_memo (u := u.finish ⟨.rule r, c.index⟩) rfl).kept ?_
          intro _ r' rule' c' o found' mode' _ same
          obtain ⟨sameRule, -⟩ := Key.mk.inj same
          cases sameRule
          rw [found] at found'
          cases found'
          rw [mode] at mode'
          cases mode'

end Rule

theorem run_extends (plain : st.plain) (closed : st.closed) (free : g.InterceptFree e) (fits : c.Fits st)
    (sound : s.Sound g st) (founded : g.Founded st s.memo) (ran : g.run fuel e c s = .ok (o, t)) :
    g.Extends st s t := by
  induction fuel, e, free using InterceptFree.induct generalizing c s o t with
  | zero e free => cases ran
  | composite fuel e free composite ih =>
      have orderly := e.routine_disciplined composite fits (Expr.description g.rules) fuel
      rw [g.run_composite composite] at ran
      exact orderly.extended (fun p part => free.part part)
        (fun p d s o t part here sound founded ran => ih p part here.fits sound founded ran) sound founded ran
  | missing fuel r free found =>
      obtain ⟨-, rfl⟩ := (run_missing_eq_ok fuel found).1 ran
      exact .refl founded
  | plain fuel r rule free found mode ih =>
      rw [run_plain found fuel mode] at ran
      exact ih fits sound founded ran
  | memo fuel r rule free found mode ih =>
      rw [run_memo found fuel mode] at ran
      exact memo_extends found plain closed fits (free.body found) sound founded
        (fun s o t sound founded ran => ih fits sound founded ran) ran
  | leftRecursive fuel r rule free found mode ih =>
      rw [run_leftRecursive found fuel mode] at ran
      exact leftRecursive_extends found plain closed fits (free.body found) sound founded
        (fun s o t sound founded ran => ih fits sound founded ran) mode ran

/-- Two runs over one founded table. The second has nothing in flight and leaves its table as it is; the first starts
with less of that table and reads no seed of a rule in flight. -/
structure Beside (g : Grammar) (st : Setting) (whole : List (Key × Entry)) (s t w w' : Session) : Prop where
  founded : g.Founded st whole
  sound : s.Sound g st
  unread : t.readsBelow s.growing.length = false
  inside : t.memo <:+ whole
  sound' : w.Sound g st
  idle : w.growing = []
  same : w'.memo = w.memo
  inside' : w.memo <:+ whole
  less : s.memo <:+ w.memo

theorem Beside.table (beside : g.Beside st whole s t w w') : g.Founded st w.memo :=
  beside.founded.suffix beside.inside'

theorem Beside.unread' (beside : g.Beside st whole s t w w') : w'.readsBelow w.growing.length = false := by
  rw [beside.idle]
  exact w'.readsBelow_zero

theorem Beside.outcome (beside : g.Beside st whole s t w w') (plain : st.plain) (closed : st.closed)
    (free : g.InterceptFree e) (fits : c.Fits st) (ran : g.run fuel e c s = .ok (o, t))
    (ran' : g.run fuel' e c w = .ok (o', w')) (within : t.memo <:+ w.memo) : o = o' := by
  have steady : g.Steady st s := (beside.table.suffix beside.less).steady
  have permanent := (run_steady plain closed free fits beside.sound steady ran).2 beside.unread
  have permanent' := (run_steady plain closed free fits beside.sound' beside.table.steady ran').2 beside.unread'
  rw [beside.same] at permanent'
  exact (permanent.mono fun key entry => beside.table.lookup within).unique permanent' beside.sound'

theorem Beside.within (beside : g.Beside st whole s t w w') (top : t.memo = (key, entry) :: memo)
    (known : w.memo.lookup key = some entry') : t.memo <:+ w.memo := by
  obtain ⟨older, place⟩ := Session.place_of_lookup known
  have inside := beside.inside
  rw [top] at inside ⊢
  rw [beside.founded.place inside (place.trans beside.inside')]
  exact place

end Grammar

theorem Runner.memo_remembers {id : ParserId} {p : Runner} (ran : Runner.memo id p c s = .ok (o, t))
    (unread : t.readsBelow s.growing.length = false) : t.remembers ⟨id, c.index⟩ = true := by
  cases known : (s.memo.lookup ⟨id, c.index⟩).bind (·.outcome? c.context.isSome) with
  | some o' =>
      obtain ⟨u, alike, hit⟩ := memo_hit p known
      rw [hit] at ran
      cases ran
      obtain ⟨entry, known, -⟩ := Option.bind_eq_some_iff.1 known
      rw [Session.remembers, alike.memo, known]
      rfl
  | none =>
      obtain ⟨note, miss⟩ := memo_miss p known
      rw [miss] at ran
      obtain ⟨⟨o', u⟩, -, result⟩ := bind_eq_ok.1 ran
      cases result
      have unread' : u.readsBelow s.growing.length = false := (Session.kept_unread unread).1
      show (s.kept u ⟨id, c.index⟩ o').remembers _ = true
      simp [Session.remembers_kept, unread']

theorem Routine.Orderly.within {D : Discipline} {α : Type} {P : α → Prop} {R : Routine α} (orderly : Orderly D P R)
    (plain : D.setting.plain) (closed : D.setting.closed) (free : ∀ e, D.parts e → g.InterceptFree e)
    (parts : ∀ e c s o t w o' w', D.parts e → D.Allows c → g.Beside D.setting whole s t w w' →
      g.run fuel e c s = .ok (o, t) → g.run fuel' e c w = .ok (o', w') → t.memo <:+ w.memo)
    (beside : g.Beside D.setting whole s t w w') {a a' : α} (ran : R (g.run fuel) s = .ok (a, t))
    (ran' : R (g.run fuel') w = .ok (a', w')) : t.memo <:+ w.memo := by
  have advance {fuel : Nat} (e : Expr) (c : Cursor) (s : Session) (part : D.parts e) (here : D.Allows c)
      (sound : s.Sound g D.setting) : Safely (g.Advances D.setting c.index s) (g.run fuel e c s) :=
    Grammar.run_advances fuel e (fun _ => free e part) here.fits sound
  have extend {fuel : Nat} (e : Expr) (c : Cursor) (s : Session) (o : Outcome) (t : Session) (part : D.parts e)
      (here : D.Allows c) (sound : s.Sound g D.setting) (founded : g.Founded D.setting s.memo)
      (ran : g.run fuel e c s = .ok (o, t)) : g.Extends D.setting s t :=
    Grammar.run_extends plain closed (free e part) here.fits sound founded ran
  induction orderly generalizing s w with
  | done result =>
      cases ran
      exact beside.less
  | exhausted lossy => cases ran
  | note f _ ih =>
      have noted : g.Beside D.setting whole (s.annotate f) t (w.annotate f) w' :=
        { beside with sound := beside.sound.congr rfl rfl, sound' := beside.sound'.congr rfl rfl }
      have within := ih noted ran ran'
      exact within
  | ask part here rest ih =>
      obtain ⟨⟨o₁, s₁⟩, ran, goesOn⟩ := bind_eq_ok.1 ran
      obtain ⟨⟨o₂, w₁⟩, ran', goesOn'⟩ := bind_eq_ok.1 ran'
      have advances := (advance _ _ _ part here beside.sound).result ran
      have advances' := (advance _ _ _ part here beside.sound').result ran'
      have extension := extend _ _ _ _ _ part here beside.sound (beside.table.suffix beside.less) ran
      have extension' := extend _ _ _ _ _ part here beside.sound' beside.table ran'
      have further := (rest o₁ advances.follows).extended free extend advances.sound extension.founded goesOn
      have further' := (rest o₂ advances'.follows).extended free extend advances'.sound extension'.founded goesOn'
      have continues := ((rest o₁ advances.follows).safely advance advances.sound).result goesOn
      have unread := beside.unread
      -- the second run writes nothing on its way either
      have same : w₁.memo = w.memo := by
        have back : w₁.memo <:+ w'.memo := further'.earlier
        rw [beside.same] at back
        exact back.eq_of_length_le extension'.earlier.length_le
      have first : g.Beside D.setting whole s s₁ w w₁ :=
        { beside with unread := continues.2.2.unread unread, inside := further.earlier.trans beside.inside, same }
      have within := parts _ _ _ _ _ _ _ _ part here first ran ran'
      cases first.outcome plain closed (free _ part) here.fits ran ran' within
      have height : s₁.growing.length = s.growing.length := congrArg List.length advances.continues.growing
      refine same ▸ ih o₁ advances.follows ?_ goesOn goesOn'
      exact { beside with
        sound := advances.sound
        unread := height ▸ unread
        sound' := advances'.sound
        idle := advances'.continues.growing.trans beside.idle
        same := beside.same.trans same.symm
        inside' := same ▸ beside.inside'
        less := same ▸ within }

namespace Grammar

/-- If a memoized rule were remembered while its own body runs, the entry would rest on a table in which the body finds
all that it needs; and all that the run writes would be older than the entry. -/
theorem body_unwritten (found : g.rules[r]? = some rule) (mode : rule.mode = .memo) (plain : st.plain)
    (closed : st.closed) (fits : c.Fits st) (free : g.InterceptFree rule.body) (sound : s.Sound g st)
    (founded : g.Founded st s.memo) (unknown : s.memo.lookup ⟨.rule r, c.index⟩ = none)
    (ran : g.run fuel rule.body c s = .ok (o, u)) (unread : u.readsBelow s.growing.length = false)
    (within : ∀ fuel' w o' w', g.Beside st u.memo s u w w' → g.run fuel' rule.body c w = .ok (o', w') →
      u.memo <:+ w.memo) : u.memo.lookup ⟨.rule r, c.index⟩ = none := by
  have advances := (run_advances fuel rule.body (fun _ => free) fits sound).result ran
  have extension := run_extends plain closed free fits sound founded ran
  refine Option.eq_none_iff_forall_not_mem.2 fun entry known => ?_
  obtain ⟨o₁, rfl, -, -⟩ := advances.sound.readable known plain closed fits
  obtain ⟨older, place⟩ := Session.place_of_lookup known
  obtain ⟨unwritten, rests, founded'⟩ := extension.founded.suffix place
  have inside : older <:+ u.memo := (List.suffix_cons _ older).trans place
  let w : Session := { memo := older }
  have sound' : w.Sound g st :=
    ⟨fun key entry known => advances.sound.memo key entry (extension.founded.lookup inside known),
      fun _ _ inFlight => (by cases inFlight), fun _ _ _ _ inFlight => (by cases inFlight)⟩
  have permanent := rests r rule c o₁ found mode fits rfl rfl
  obtain ⟨fuel', w', ran', alike⟩ := permanent w sound' fun _ _ known => known
  have earlier : u.memo <:+ older := within fuel' w o₁ w'
    { founded := extension.founded
      sound
      unread
      inside := List.suffix_rfl
      sound'
      idle := rfl
      same := alike.memo
      inside' := inside
      less := extension.founded.before extension.earlier place unknown } ran'
  rw [founded'.lookup earlier known] at unwritten
  cases unwritten

theorem memo_within {p : Runner} (found : g.rules[r]? = some rule) (mode : rule.mode = .memo) (plain : st.plain)
    (closed : st.closed) (fits : c.Fits st) (free : g.InterceptFree rule.body) (beside : g.Beside st whole s t w w')
    (body : ∀ fuel' (s u w : Session) o o' w', g.Beside st u.memo s u w w' → g.run fuel rule.body c s = .ok (o, u) →
      g.run fuel' rule.body c w = .ok (o', w') → u.memo <:+ w.memo)
    (ran : Runner.memo (.rule r) (g.run fuel rule.body) c s = .ok (o, t))
    (ran' : Runner.memo (.rule r) p c w = .ok (o', w')) : t.memo <:+ w.memo := by
  cases known : (s.memo.lookup ⟨.rule r, c.index⟩).bind (·.outcome? c.context.isSome) with
  | some o₁ =>
      obtain ⟨u, alike, hit⟩ := Runner.memo_hit (g.run fuel rule.body) known
      rw [hit] at ran
      cases ran
      rw [alike.memo]
      exact beside.less
  | none =>
      obtain ⟨entry, known'⟩ := Option.isSome_iff_exists.1 (Runner.memo_remembers ran' beside.unread')
      rw [beside.same] at known'
      obtain ⟨note, miss⟩ := Runner.memo_miss (g.run fuel rule.body) known
      rw [miss] at ran
      obtain ⟨⟨o₁, u⟩, evaluated, result⟩ := bind_eq_ok.1 ran
      cases result
      obtain ⟨unread, kept⟩ := Session.kept_unread (t := u) beside.unread
      have founded : g.Founded st s.memo := beside.table.suffix beside.less
      have unwritten := body_unwritten found mode plain closed fits free (s := s.missed) (beside.sound.congr rfl rfl)
        founded (Runner.miss_unknown beside.sound fits plain closed known) evaluated unread
        fun fuel' w o' w' beside ran' => body fuel' _ _ w _ o' w' beside evaluated ran'
      exact beside.within (Session.kept_top unread unwritten) known'

theorem leftRecursive_within (found : g.rules[r]? = some rule) (mode : rule.mode = .leftRecursive) (plain : st.plain)
    (closed : st.closed) (fits : c.Fits st) (free : g.InterceptFree rule.body) (beside : g.Beside st whole s t w w')
    (ran : Runner.leftRecursive (.rule r) rule.title (g.run fuel rule.body) c s = .ok (o, t))
    (ran' : Runner.leftRecursive (.rule r) rule.title (g.run fuel' rule.body) c w = .ok (o', w')) :
    t.memo <:+ w.memo := by
  have pass (fuel : Nat) (s : Session) (sound : s.Sound g st) := run_advances fuel rule.body (fun _ => free) fits sound
  have known' := Runner.leftRecursive_remembers found mode plain closed fits beside.sound' rule.title (pass fuel') ran'
    beside.unread'
  have remembered := Runner.leftRecursive_remembers found mode plain closed fits beside.sound rule.title (pass fuel) ran
    beside.unread
  rw [beside.same] at known'
  cases inFlight : s.growing.lookup ⟨.rule r, c.index⟩ with
  | some growth =>
      -- a rule in flight is not remembered, and reading its seed does not change that
      rw [Runner.leftRecursive_seed rule.title _ inFlight] at ran
      cases ran
      have unknown := beside.sound.apart plain closed _ growth inFlight
      exact absurd (unknown.symm.trans remembered) (by simp)
  | none =>
      cases known : (s.memo.lookup ⟨.rule r, c.index⟩).bind (·.outcome? c.context.isSome) with
      | some o₁ =>
          obtain ⟨u, alike, hit⟩ := Runner.leftRecursive_hit rule.title (g.run fuel rule.body) inFlight known
          rw [hit] at ran
          cases ran
          rw [alike.memo]
          exact beside.less
      | none =>
          obtain ⟨before, rest, remains, -, -⟩ := fits.remaining
          obtain ⟨start, alike, grows⟩ := Runner.leftRecursive_grow rule.title remains inFlight known
          rw [grows] at ran
          obtain ⟨⟨o₁, u⟩, grown, result⟩ := bind_eq_ok.1 ran
          cases result
          obtain ⟨-, sound, above⟩ := (Runner.grown_safely found mode fits beside.sound inFlight known (pass fuel) alike
            rule.title rest _ _).result grown
          obtain ⟨growth, top⟩ := above.lookup
          have unwritten : (u.finish ⟨.rule r, c.index⟩).memo.lookup ⟨.rule r, c.index⟩ = none :=
            sound.apart plain closed _ growth top
          exact beside.within (Session.kept_top (Session.kept_unread beside.unread).1 unwritten) known'

theorem run_within (plain : st.plain) (closed : st.closed) (free : g.InterceptFree e) (fits : c.Fits st)
    (beside : g.Beside st whole s t w w') (ran : g.run fuel e c s = .ok (o, t))
    (ran' : g.run fuel' e c w = .ok (o', w')) : t.memo <:+ w.memo := by
  induction fuel, e, free using InterceptFree.induct generalizing c whole s o t fuel' w o' w' with
  | zero e free => cases ran
  | composite fuel e free composite ih =>
      -- the loops of both runs are given the fuel of the longer one
      have orderly := e.routine_disciplined composite fits (Expr.description g.rules) (max fuel fuel')
      have ran' := run_mono (Nat.le_succ fuel') ran'
      rw [g.run_composite composite] at ran ran'
      have ran := e.routine_below _ (fun e c s => .refl _) (Nat.le_max_left fuel fuel') c s _ ran
      have ran' := e.routine_below _ (fun e c s => .refl _) (Nat.le_max_right fuel fuel') c w _ ran'
      exact orderly.within plain closed (fun p part => free.part part)
        (fun p d s o t w o' w' part here beside ran ran' => ih p part here.fits beside ran ran') beside ran ran'
  | missing fuel r free found =>
      obtain ⟨-, rfl⟩ := (run_missing_eq_ok fuel found).1 ran
      exact beside.less
  | plain fuel r rule free found mode ih =>
      have ran' := run_mono (Nat.le_succ fuel') ran'
      rw [run_plain found _ mode] at ran ran'
      exact ih fits beside ran ran'
  | memo fuel r rule free found mode ih =>
      have ran' := run_mono (Nat.le_succ fuel') ran'
      rw [run_memo found _ mode] at ran ran'
      exact memo_within found mode plain closed fits (free.body found) beside (fun _ _ _ _ _ _ _ => ih fits) ran ran'
  | leftRecursive fuel r rule free found mode =>
      have ran' := run_mono (Nat.le_succ fuel') ran'
      rw [run_leftRecursive found _ mode] at ran ran'
      exact leftRecursive_within found mode plain closed fits (free.body found) beside ran ran'

theorem memo_unwritten (plain : st.plain) (closed : st.closed) (free : g.InterceptFree rule.body)
    (found : g.rules[r]? = some rule) (mode : rule.mode = .memo) (fits : c.Fits st) (sound : s.Sound g st)
    (founded : g.Founded st s.memo) (unknown : s.memo.lookup ⟨.rule r, c.index⟩ = none)
    (ran : g.run fuel rule.body c s = .ok (o, t)) (unread : t.readsBelow s.growing.length = false) :
    t.memo.lookup ⟨.rule r, c.index⟩ = none :=
  body_unwritten found mode plain closed fits free sound founded unknown ran unread
    fun _ _ _ _ beside => run_within plain closed free fits beside ran

end Grammar
end ParseEngine
