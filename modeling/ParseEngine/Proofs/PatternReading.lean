import ParseEngine.Pattern.Reader

/-!
Reading a pattern with more text after it.

A reader looks at no more of the pattern than comes next. Put more text after a pattern, and a reader comes to the added
text or does what it did before, so that a group cannot be closed inside a pattern that is well formed by itself.
-/

namespace ParseEngine.Pattern

def Reading.followed (r : Reading) (added : List Char) : Reading :=
  { r with rest := r.rest ++ added }

@[simp] theorem Reading.followed_rest (r : Reading) (added : List Char) : (r.followed added).rest = r.rest ++ added :=
  rfl

namespace Reader

variable {α β : Type} {m m' : Reader α} {k k' : α → Reader β} {r r' : Reading} {a b : α} {added : List Char}

/-- Of two results, the second for a text with more after it: the second reading has come to the added text, or the two
are the same. -/
def Agree (added : List Char) (first second : Option (α × Reading)) : Prop :=
  ∀ a r b r', first = some (a, r) → second = some (b, r') → r'.rest <:+ added ∨ b = a ∧ r' = r.followed added

/-- The second reader reads on, and where text is left, it agrees with the first. -/
structure Steady (m m' : Reader α) : Prop where
  shortens : ∀ r a r', m' r = some (a, r') → r'.rest <:+ r.rest
  agree : ∀ r added, r.rest ≠ [] → Agree added (m r) (m' (r.followed added))

@[simp] theorem bind_apply (m : Reader α) (k : α → Reader β) (r : Reading) :
    (m >>= k) r = (m r).bind fun p => k p.1 p.2 :=
  rfl

@[simp] theorem pure_apply (a : α) (r : Reading) : (pure a : Reader α) r = some (a, r) :=
  rfl

@[simp] theorem get_apply (r : Reading) : (get : Reader Reading) r = some (r, r) :=
  rfl

@[simp] theorem peek_apply (r : Reading) : peek r = some (r.rest.head?, r) :=
  rfl

@[simp] theorem skip_apply (n : Nat) (r : Reading) : skip n r = some ((), { r with rest := r.rest.drop n }) :=
  rfl

@[simp] theorem span_apply (set : CharSet) (r : Reading) : span set r =
    some (r.rest.takeWhile set, { r with rest := r.rest.drop (r.rest.takeWhile set).length }) :=
  rfl

theorem bind_eq_some {x : β × Reading} : (m >>= k) r = some x ↔ ∃ a r', m r = some (a, r') ∧ k a r' = some x := by
  simp [bind_apply, Option.bind_eq_some_iff]

namespace Steady

theorem agrees (steady : Steady m m') (r : Reading) (added : List Char) :
    Agree added (m r) (m' (r.followed added)) := by
  by_cases empty : r.rest = []
  · intro a r₁ b r₂ _ second
    have shorter := steady.shortens _ _ _ second
    rw [Reading.followed_rest, empty] at shorter
    exact .inl shorter
  · exact steady.agree r added empty

theorem bind (first : Steady m m') (second : ∀ a, Steady (k a) (k' a)) : Steady (m >>= k) (m' >>= k') where
  shortens r b r' ran := by
    obtain ⟨a, r₁, ran₁, ran₂⟩ := bind_eq_some.1 ran
    exact ((second a).shortens _ _ _ ran₂).trans (first.shortens _ _ _ ran₁)
  agree r added _ b r₂ b' r₂' ran ran' := by
    obtain ⟨a, r₁, ran₁, ran₂⟩ := bind_eq_some.1 ran
    obtain ⟨a', r₁', ran₁', ran₂'⟩ := bind_eq_some.1 ran'
    obtain come | ⟨rfl, rfl⟩ := first.agrees r added _ _ _ _ ran₁ ran₁'
    · exact .inl (((second a').shortens _ _ _ ran₂').trans come)
    · exact (second a').agrees r₁ added _ _ _ _ ran₂ ran₂'

theorem pure (a : α) : Steady (Pure.pure a) (Pure.pure a) where
  shortens r b r' ran := by
    cases ran
    exact List.suffix_refl _
  agree r added _ b r₁ b' r₁' ran ran' := by
    cases ran
    cases ran'
    exact .inr ⟨rfl, rfl⟩

theorem rejected (m : Reader α) : Steady m reject where
  shortens _ _ _ ran := nomatch ran
  agree _ _ _ _ _ _ _ _ ran' := nomatch ran'

theorem of_fuel {f : Nat → Reader α} (spent : f 0 = reject) (more : ∀ fuel, Steady (f (fuel + 1)) m') (fuel : Nat) :
    Steady (f fuel) m' := by
  cases fuel with
  | zero =>
      rw [spent]
      exact ⟨(more 0).shortens, fun _ _ _ _ _ _ _ ran => nomatch ran⟩
  | succ fuel => exact more fuel

theorem get_bind {k k' : Reading → Reader β} (next : ∀ r, Steady (k r) (k' r))
    (ahead : ∀ r added, r.rest ≠ [] → k' (r.followed added) = k' r ∨
      Agree added (k r r) (k' (r.followed added) (r.followed added))) : Steady (get >>= k) (get >>= k') where
  shortens r := (next r).shortens r
  agree r added left := by
    obtain same | agree := ahead r added left
    · change Agree added (k r r) (k' (r.followed added) (r.followed added))
      rw [same]
      exact (next r).agree r added left
    · exact agree

theorem switches_bind {k k' : Reading → Reader β} (next : ∀ r, Steady (k r) (k' r))
    (same : ∀ r added, k' (r.followed added) = k' r) : Steady (get >>= k) (get >>= k') :=
  .get_bind next fun r added _ => .inl (same r added)

theorem ite {c : Prop} [Decidable c] {n n' : Reader α} (yes : Steady m m') (no : Steady n n') :
    Steady (if c then m else n) (if c then m' else n') := by
  split
  · exact yes
  · exact no

theorem dite {c : Prop} [Decidable c] {m m' : c → Reader α} {n n' : ¬c → Reader α}
    (yes : ∀ holds, Steady (m holds) (m' holds)) (no : ∀ fails, Steady (n fails) (n' fails)) :
    Steady (if h : c then m h else n h) (if h : c then m' h else n' h) := by
  by_cases holds : c
  · rw [dif_pos holds, dif_pos holds]
    exact yes holds
  · rw [dif_neg holds, dif_neg holds]
    exact no holds

theorem modify {f : Reading → Reading} (keeps : ∀ r, (f r).rest = r.rest)
    (same : ∀ r added, f (r.followed added) = (f r).followed added) : Steady (modify f) (modify f) where
  shortens r _ r' ran := by
    cases ran
    exact (keeps r) ▸ List.suffix_refl _
  agree r added _ _ r₁ _ r₁' ran ran' := by
    cases ran
    cases ran'
    exact .inr ⟨rfl, same r added⟩

end Steady

theorem drop_append_suffix {n : Nat} {w : List Char} (past : w.length ≤ n) (added : List Char) :
    (w ++ added).drop n <:+ added := by
  rw [List.drop_append, List.drop_of_length_le past, List.nil_append]
  exact List.drop_suffix _ _

theorem skip_steady (n : Nat) : Steady (skip n) (skip n) where
  shortens r _ r' ran := by
    cases ran
    exact List.drop_suffix _ _
  agree r added _ _ r₁ _ r₁' ran ran' := by
    cases ran
    cases ran'
    by_cases past : r.rest.length ≤ n
    · exact .inl (drop_append_suffix past added)
    · have same : (r.rest ++ added).drop n = r.rest.drop n ++ added := List.drop_append_of_le_length (by omega)
      exact .inr ⟨rfl, congrArg (fun rest => { r with rest }) same⟩

theorem peek_steady : Steady peek peek where
  shortens r _ r' ran := by
    cases ran
    exact List.suffix_refl _
  agree r added left _ r₁ _ r₁' ran ran' := by
    cases ran
    cases ran'
    have same : (r.followed added).rest.head? = r.rest.head? := by
      rw [Reading.followed_rest, List.head?_append, List.head?_eq_some_head left]
      rfl
    exact .inr ⟨same, rfl⟩

theorem next_steady : Steady next next := by
  refine .bind peek_steady fun found => ?_
  cases found with
  | none => exact .rejected _
  | some c => exact .bind (skip_steady 1) fun _ => .pure c

theorem expect_steady (c : Char) : Steady (expect c) (expect c) :=
  .bind next_steady fun _ => .ite (.pure ()) (.rejected _)

theorem take?_steady (text : List Char) : Steady (take? text) (take? text) := by
  refine .get_bind (fun r => .ite (.bind (skip_steady _) fun _ => .pure true) (.pure false)) fun r added left => ?_
  by_cases here : text.isPrefixOf r.rest = true
  · have there : text.isPrefixOf (r.followed added).rest = true :=
      List.isPrefixOf_iff_prefix.2 ((List.isPrefixOf_iff_prefix.1 here).trans (List.prefix_append _ _))
    left
    rw [if_pos here, if_pos there]
  · by_cases there : text.isPrefixOf (r.followed added).rest = true
    · right
      rw [if_pos there]
      rintro a r₁ b r₁' - ran'
      cases ran'
      have past : r.rest.length ≤ text.length := Nat.le_of_not_le fun short =>
        here (List.isPrefixOf_iff_prefix.2 (List.prefix_of_prefix_length_le (List.isPrefixOf_iff_prefix.1 there)
          (List.prefix_append _ _) short))
      exact .inl (drop_append_suffix past added)
    · left
      rw [if_neg here, if_neg there]

theorem span_steady (set : CharSet) : Steady (span set) (span set) := by
  refine .get_bind (fun r => .bind (skip_steady _) fun _ => .pure _) fun r added left => ?_
  rw [Reading.followed_rest, List.takeWhile_append]
  split
  · right
    rintro a r₁ b r₁' - ran'
    cases ran'
    exact .inl (drop_append_suffix (by simp) added)
  · exact .inl rfl

theorem skipIgnored_steady (fuel : Nat) : Steady (skipIgnored fuel) (skipIgnored fuel) := by
  induction fuel with
  | zero => exact .pure ()
  | succ fuel ih =>
      refine .switches_bind (fun _ => .ite ?_ (.pure ())) fun _ _ => rfl
      refine .bind peek_steady fun found => ?_
      split
      · exact .bind (span_steady _) fun _ => ih
      · exact .ite (.bind (skip_steady 1) fun _ => ih) (.pure ())
      · exact .pure ()

theorem skipIgnored_round (r : Reading) : (∀ fuel, skipIgnored fuel r = some ((), r)) ∨
    ∃ r' : Reading, r'.rest.length < r.rest.length ∧ ∀ fuel, skipIgnored (fuel + 1) r = skipIgnored fuel r' := by
  obtain ⟨rest, switches, names⟩ := r
  by_cases ignores : switches.ignoreBlanks = true
  · cases rest with
    | nil =>
        left
        rintro (_ | fuel)
        · rfl
        · simp [skipIgnored, ignores]
    | cons c rest =>
        by_cases comment : c = '#'
        · subst comment
          right
          refine ⟨⟨rest.drop (rest.takeWhile (· != '\n')).length, switches, names⟩, ?_, fun fuel => ?_⟩
          · exact Nat.lt_succ_of_le (List.drop_suffix _ _).length_le
          · simp [skipIgnored, ignores]
        · by_cases blank : Text.isBlank c = true
          · right
            refine ⟨⟨rest, switches, names⟩, Nat.lt_succ_self _, fun fuel => ?_⟩
            simp [skipIgnored, ignores, blank]
          · left
            rintro (_ | fuel)
            · rfl
            · simp [skipIgnored, ignores, blank]
  · left
    rintro (_ | fuel)
    · rfl
    · simp [skipIgnored, ignores]

theorem skipIgnored_enough {fuel : Nat} {r : Reading} (enough : r.rest.length ≤ fuel) (more : Nat) :
    skipIgnored (fuel + more) r = skipIgnored fuel r := by
  induction fuel generalizing r with
  | zero =>
      obtain ends | ⟨r', shorter, -⟩ := skipIgnored_round r
      · rw [ends, ends]
      · omega
  | succ fuel ih =>
      obtain ends | ⟨r', shorter, goesOn⟩ := skipIgnored_round r
      · rw [ends, ends]
      · rw [Nat.add_right_comm, goesOn, goesOn]
        exact ih (by omega)

theorem skipBlanks_steady : Steady skipBlanks skipBlanks := by
  refine .get_bind (fun r => skipIgnored_steady _) fun r added left => .inr ?_
  have fuel : 2 * (r.followed added).rest.length = 2 * r.rest.length + 2 * added.length := by
    rw [Reading.followed_rest, List.length_append, Nat.mul_add]
  rw [← skipIgnored_enough (by omega) (2 * added.length), ← fuel]
  exact (skipIgnored_steady _).agree r added left

theorem charOf_steady (code : Nat) : Steady (charOf code) (charOf code) :=
  .dite (fun _ => .pure _) fun _ => .rejected _

theorem hexEscape_steady (count : Nat) : Steady (hexEscape count) (hexEscape count) := by
  refine .bind peek_steady fun found => .ite ?_ ?_
  · refine .bind (skip_steady 1) fun _ => .bind (span_steady _) fun digits => .bind (expect_steady _) fun _ => ?_
    exact .ite (.rejected _) (charOf_steady _)
  · refine .get_bind (fun r => .ite (.bind (skip_steady count) fun _ => charOf_steady _) (.rejected _))
      fun r added left => ?_
    by_cases whole : count ≤ r.rest.length
    · have same : (r.followed added).rest.take count = r.rest.take count := List.take_append_of_le_length whole
      left
      rw [same]
    · right
      rintro a r₁ b r₁' ran -
      have short : (r.rest.take count).length ≠ count := by
        rw [List.length_take]
        omega
      simp only [decide_eq_false short] at ran
      cases ran

theorem decimal_steady : Steady decimal decimal := by
  refine .bind (span_steady _) fun _ => .bind (span_steady _) fun digits => .bind (span_steady _) fun _ => ?_
  refine .ite (.bind (.rejected _) fun _ => ?_) (.ite (.pure _) (.rejected _))
  exact .ite (.pure _) (.rejected _)

theorem letterClass_steady (switches : Switches) (letter : Char) :
    Steady (letterClass switches letter) (letterClass switches letter) :=
  .ite (.rejected _) (.pure _)

theorem boundary_steady (word : CharSet) : Steady (boundary word) (boundary word) := by
  refine .bind peek_steady fun found => .ite (.get_bind (fun r => ?_) fun r added left => ?_) (.pure _)
  · split
    · exact .rejected _
    · refine .ite ?_ (.pure _)
      refine .bind (skip_steady 1) fun _ => .bind (span_steady _) fun kind => .bind (expect_steady _) fun _ => ?_
      split
      case h_5 => exact .rejected _
      all_goals exact .pure _
  · obtain ⟨rest, switches, names⟩ := r
    match rest with
    | [] => exact absurd rfl left
    | [c] => exact .inr fun a r₁ b r₁' ran => nomatch ran
    | c :: d :: rest => exact .inl rfl

theorem escape_steady : Steady escape escape := by
  refine .switches_bind (fun r => .bind next_steady fun c => ?_) fun _ _ => rfl
  split
  · refine .bind peek_steady fun _ => .bind (hexEscape_steady 2) fun _ => .ite (.rejected _) (.pure _)
  · exact .bind (hexEscape_steady 4) fun _ => .pure _
  · exact .bind (hexEscape_steady 8) fun _ => .pure _
  all_goals try exact .pure _
  · exact .bind (boundary_steady _) fun _ => .pure _
  · refine .ite (.bind (letterClass_steady _ _) fun _ => .pure _) (.ite (.rejected _) (.pure _))

theorem classChar_steady (c : Char) : Steady (classChar c) (classChar c) := by
  exact .switches_bind (fun _ => .ite (.pure _) (.rejected _)) fun _ _ => rfl

theorem classItem_steady : Steady classItem classItem := by
  refine .bind next_steady fun c => ?_
  split
  · refine .bind escape_steady fun escape => ?_
    split
    · exact classChar_steady _
    · exact .pure _
    · exact .rejected _
  · exact classChar_steady _

theorem rangeEnd_steady (low : Char) :
    let rangeEnd : Reader CharSet := do
      skipBlanks
      match ← classItem with
      | .inl high => if low ≤ high then return .range low high else reject
      | .inr _ => reject
    Steady rangeEnd rangeEnd := by
  refine .bind skipBlanks_steady fun _ => .bind classItem_steady fun second => ?_
  split
  · exact .ite (.pure _) (.rejected _)
  · exact .rejected _

theorem classRange_steady : Steady classRange classRange := by
  refine .bind classItem_steady fun first => .bind skipBlanks_steady fun _ => .get_bind (fun r => ?_)
    fun r added left => ?_
  · split
    · exact .rejected _
    · exact .ite (.pure _) (.rejected _)
    · exact .pure _
    · exact .ite (.pure _) (.bind (skip_steady 1) fun _ => rangeEnd_steady _)
    · exact .pure _
  · obtain ⟨_ | ⟨c, rest⟩, switches, names⟩ := r
    · exact absurd rfl left
    by_cases hyphen : c = '-'
    · subst hyphen
      match rest, added with
      | d :: rest, added => cases first <;> exact .inl rfl
      | [], [] => cases first <;> exact .inl rfl
      | [], d :: added =>
          -- what comes after the hyphen is looked at only here, and a range goes on there
          right
          rintro a r₁ b r₁' ran ran'
          cases first with
          | inl low =>
              change (if (d == ']' || d == '-') = true then _ else _ : Reader CharSet) _ = _ at ran'
              cases ran
              split at ran'
              · cases ran'
                exact .inr ⟨rfl, rfl⟩
              · obtain ⟨_, r₂, skipped, ran'⟩ := bind_eq_some.1 ran'
                cases skipped
                exact .inl ((rangeEnd_steady low).shortens _ _ _ ran')
          | inr set =>
              change (if (d == ']' || d == '-') = true then _ else _ : Reader CharSet) _ = _ at ran'
              cases ran
              split at ran'
              · cases ran'
                exact .inr ⟨rfl, rfl⟩
              · cases ran'
    · left
      cases first <;> simp [hyphen]

def className (negated : Bool) (name : List Char) : List Char :=
  '[' :: ':' :: ((if negated then ['^'] else []) ++ name ++ [':', ']'])

theorem length_className (negated : Bool) (name : List Char) :
    2 + (if negated then 1 else 0) + name.length + 2 = (className negated name).length := by
  cases negated <;> simp [className] <;> omega

theorem className_append (negated : Bool) (name tail : List Char) : className negated name ++ tail =
    '[' :: ':' :: ((if negated then ['^'] else []) ++ (name ++ ':' :: ']' :: tail)) := by
  simp [className]

structure Names (negated : Bool) (name : List Char) (set : CharSet) : Prop where
  plain : ':' ∉ name
  unmarked : negated = false → name.head? ≠ some '^'
  known : CharSet.named? (String.ofList name) = some set

theorem namedClass?_of_names {negated : Bool} {name : List Char} {set : CharSet} (names : Names negated name set)
    (switches : Switches) (r : Reading) :
    namedClass? switches { r with rest := className negated name ++ r.rest } =
      some (some ((if switches.ignoreCase then set.foldCase switches.unicode else set).negateIf negated), r) := by
  have passed (found : Option CharSet) :
      (do skip (2 + (if negated then 1 else 0) + name.length + 2); return found : Reader _)
        { r with rest := className negated name ++ r.rest } = some (found, r) := by
    rw [length_className]
    change some (found, { r with rest := (className negated name ++ r.rest).drop (className negated name).length }) = _
    rw [List.drop_left]
  have plain : ∀ c ∈ name, (c != ':') = true := fun c member => bne_iff_ne.2 fun same => names.plain (same ▸ member)
  have word : (name ++ ':' :: ']' :: r.rest).takeWhile (· != ':') = name := by
    rw [List.takeWhile_append_of_pos plain]
    simp
  have closing : (name ++ ':' :: ']' :: r.rest).drop name.length = ':' :: ']' :: r.rest := List.drop_left
  rw [← passed, className_append]
  cases negated with
  | true => simp [namedClass?, word, names.known, closing, -bind_pure_comp]
  | false =>
      have unmarked : ((name ++ ':' :: ']' :: r.rest).head? == some '^') = false := by
        cases name with
        | nil => rfl
        | cons c name => simpa using names.unmarked rfl
      simp only [Bool.false_eq_true, if_false, List.nil_append, namedClass?, bind_apply, get_apply, Option.bind_some,
        unmarked, word, closing, names.known]

theorem namedClass?_eq_some {switches : Switches} {found : Option CharSet} {r r' : Reading}
    (ran : namedClass? switches r = some (found, r')) : found = none ∧ r' = r ∨
      ∃ negated name set, Names negated name set ∧ r = { r' with rest := className negated name ++ r'.rest } := by
  obtain ⟨rest, current, taken⟩ := r
  obtain ⟨_, _, got, ran⟩ := bind_eq_some.1 ran
  cases got
  dsimp only at ran
  split at ran
  · rename_i tail _
    generalize marked : (tail.head? == some '^') = negated at ran
    generalize cut : (if negated = true then tail.drop 1 else tail) = body at ran
    generalize word : body.takeWhile (· != ':') = name at ran
    generalize closing : body.drop name.length = closes, known : CharSet.named? (String.ofList name) = set? at ran
    split at ran
    · rename_i tail' set
      have leads : name <+: body := word ▸ List.takeWhile_prefix _
      have split : body = name ++ ':' :: ']' :: tail' := by
        rw [← closing]
        exact (List.prefix_iff_eq_append.1 leads).symm
      have spelled : '[' :: ':' :: tail = className negated name ++ tail' := by
        rw [className_append, ← split, ← cut]
        cases negated with
        | true =>
            obtain ⟨tail, rfl⟩ := List.head?_eq_some_iff.1 (beq_iff_eq.1 marked)
            rfl
        | false => rfl
      have names : Names negated name set := by
        refine ⟨fun member => ?_, fun unmarked head => ?_, known⟩
        · have other := List.all_eq_true.1 List.all_takeWhile ':' (word ▸ member)
          simp at other
        · subst unmarked
          have same : tail = body := cut
          rw [same, split, List.head?_append, head] at marked
          cases marked
      right
      cases ran
      refine ⟨negated, name, set, names, ?_⟩
      change (⟨'[' :: ':' :: tail, current, taken⟩ : Reading) =
        ⟨className negated name ++ ('[' :: ':' :: tail).drop _, current, taken⟩
      rw [length_className, spelled, List.drop_left]
    · cases ran
      exact .inl ⟨rfl, rfl⟩
  · cases ran
    exact .inl ⟨rfl, rfl⟩

theorem namedClass?_steady (switches : Switches) : Steady (namedClass? switches) (namedClass? switches) where
  shortens r found r' ran := by
    obtain ⟨-, rfl⟩ | ⟨negated, name, set, -, rfl⟩ := namedClass?_eq_some ran
    · exact List.suffix_refl _
    · exact List.suffix_append _ _
  agree r added _ found r₁ found' r₁' ran ran' := by
    obtain ⟨rfl, rfl⟩ | ⟨negated, name, set, names, rfl⟩ := namedClass?_eq_some ran
    · obtain ⟨rfl, rfl⟩ | ⟨negated, name, set, names, longer⟩ := namedClass?_eq_some ran'
      · exact .inr ⟨rfl, rfl⟩
      · -- a name that ended before the added text would have been found without it
        have split : r₁.rest ++ added = className negated name ++ r₁'.rest := congrArg Reading.rest longer
        obtain ⟨tail, within, come⟩ | ⟨tail, within, come⟩ := List.append_eq_append_iff.1 split
        · exact .inl ⟨tail, come.symm⟩
        · have known := namedClass?_of_names names switches { r₁ with rest := tail }
          rw [← within, ran] at known
          cases known
    · have here := namedClass?_of_names names switches r₁
      have there := namedClass?_of_names names switches (r₁.followed added)
      rw [here] at ran
      cases ran
      rw [Reading.followed, List.append_assoc] at ran'
      cases there.symm.trans ran'
      exact .inr ⟨rfl, rfl⟩

theorem setOperation?_steady : Steady setOperation? setOperation? := by
  refine .bind (take?_steady _) fun _ => .ite (.pure _) (.bind (take?_steady _) fun _ => .ite (.pure _) ?_)
  exact .bind (take?_steady _) fun _ => .ite (.pure _) (.pure _)

theorem classOpening_steady : Steady classOpening classOpening := by
  refine .bind (span_steady _) fun _ => .ite ?_ (.pure _)
  exact .bind (take?_steady _) fun _ => .ite (.pure _) (.pure _)

theorem groupName_steady : Steady groupName groupName := by
  refine .bind (span_steady _) fun name => .bind (expect_steady _) fun _ => ?_
  dsimp only
  split
  · exact .rejected _
  · refine .switches_bind (fun r => .ite (.modify (fun _ => rfl) fun _ _ => rfl) (.rejected _)) fun _ _ => rfl

theorem openingEnd_steady (current : Switches) (named : Bool) :
    let openingEnd : Reader Opening := do
      if named then
        groupName
        return .group current
      let letters ← span fun c => c != ':' && c != ')'
      match readSwitches letters [] true current with
      | none => reject
      | some switches =>
          if (← next) == ':' then return .group switches
          else if letters.isEmpty then reject
          else return .switches switches
    Steady openingEnd openingEnd := by
  refine .ite (.bind groupName_steady fun _ => .pure _) (.bind (span_steady _) fun letters => ?_)
  split
  · exact .rejected _
  · exact .bind next_steady fun _ => .ite (.pure _) (.ite (.rejected _) (.pure _))

theorem opening_steady : Steady opening opening := by
  refine .switches_bind (fun r => .bind skipBlanks_steady fun _ => .bind (take?_steady _) fun _ => .ite ?_ (.pure _))
    fun _ _ => rfl
  have goesOn := openingEnd_steady r.switches
  refine .bind skipBlanks_steady fun _ => .bind (take?_steady _) fun named => .ite (.bind (.pure _) goesOn) ?_
  refine .get_bind (fun r => ?_) fun r added left => ?_
  · split
    · exact .ite (.bind (.rejected _) goesOn) (.bind (take?_steady _) goesOn)
    · exact .bind (.pure _) goesOn
  · obtain ⟨_ | ⟨c, rest⟩, switches, names⟩ := r
    · exact absurd rfl left
    by_cases angle : c = '<'
    · subst angle
      match rest, added with
      | d :: rest, added => exact .inl rfl
      | [], [] => exact .inl rfl
      | [], d :: added =>
          right
          rintro a r₁ b r₁' - ran'
          change (if (d == '=' || d == '!') = true then _ else _ : Reader Opening) _ = _ at ran'
          split at ran'
          · cases ran'
          · obtain ⟨_, r₂, taken, ran'⟩ := bind_eq_some.1 ran'
            cases taken
            exact .inl ((goesOn true).shortens _ _ _ ran')
    · left
      simp [angle]

theorem dot_steady (switches : Switches) : Steady (dot switches) (dot switches) := by
  refine .ite (.bind (.rejected _) fun _ => ?_) ?_
  all_goals exact .ite (.pure _) (.ite (.pure _) (.pure _))

theorem boundsEnd_steady (least : Nat) (range : Nat × Option Nat) :
    let boundsEnd : Reader (Nat × Option Nat) := do
      expect '\x7d'
      match range with
      | (_, some most) => if least ≤ most then return range else reject
      | _ => return range
    Steady boundsEnd boundsEnd := by
  refine .bind (expect_steady _) fun _ => ?_
  split
  · exact .ite (.pure _) (.rejected _)
  · exact .pure _

theorem bounds_steady : Steady bounds bounds := by
  refine .bind decimal_steady fun least => ?_
  have closing := boundsEnd_steady least
  refine .bind (take?_steady _) fun _ => .ite ?_ (.bind (.pure _) closing)
  refine .bind skipBlanks_steady fun _ => .bind peek_steady fun _ => .ite (.bind (.pure _) closing) ?_
  exact .bind decimal_steady fun _ => .bind (.pure _) closing

theorem repetition?_steady : Steady repetition? repetition? := by
  refine .bind peek_steady fun found => ?_
  split
  · exact .bind (skip_steady 1) fun _ => .pure _
  · exact .bind (skip_steady 1) fun _ => .pure _
  · exact .bind (skip_steady 1) fun _ => .pure _
  · exact .bind (skip_steady 1) fun _ => .bind bounds_steady fun _ => .pure _
  · exact .pure _

theorem repeated_steady (fuel fuel' : Nat) (tree : Tree) : Steady (repeated fuel tree) (repeated fuel' tree) := by
  induction fuel' generalizing fuel tree with
  | zero => exact .rejected _
  | succ fuel' ih =>
      refine .of_fuel (f := fun fuel => repeated fuel tree) rfl (fun fuel => ?_) fuel
      refine .bind skipBlanks_steady fun _ => .bind repetition?_steady fun found => ?_
      split
      · exact .pure _
      · refine .bind skipBlanks_steady fun _ => .bind (take?_steady _) fun _ => ?_
        exact .switches_bind (fun _ => ih _ _) fun _ _ => rfl

theorem bracketed_steady (fuel' : Nat) : (∀ fuel, Steady (bracketed fuel) (bracketed fuel')) ∧
    ∀ switches fold fuel pending united, Steady (bracketed.members switches fold fuel pending united)
      (bracketed.members switches fold fuel' pending united) := by
  induction fuel' with
  | zero => exact ⟨fun _ => .rejected _, fun _ _ _ _ _ => .rejected _⟩
  | succ fuel' ih =>
      obtain ⟨nested, members⟩ := ih
      constructor
      · refine .of_fuel rfl fun fuel => .switches_bind (fun r => ?_) fun _ _ => rfl
        refine .bind skipBlanks_steady fun _ => .bind (take?_steady _) fun _ => .bind skipBlanks_steady fun _ => ?_
        refine .bind classOpening_steady fun opening => .bind (members _ _ _ _ _) fun set => ?_
        exact .ite (.rejected _) (.pure _)
      · intro switches fold fuel pending united
        refine .of_fuel (f := fun fuel => bracketed.members switches fold fuel pending united) rfl (fun fuel => ?_) fuel
        refine .bind skipBlanks_steady fun _ => .bind (take?_steady _) fun _ => .ite (.pure _) ?_
        refine .bind setOperation?_steady fun operation => ?_
        split
        · exact members _ _ _ _ _
        · refine .bind (namedClass?_steady _) fun named => ?_
          split
          · exact members _ _ _ _ _
          · refine .bind (take?_steady _) fun _ => .ite ?_ ?_
            · exact .bind (nested _) fun _ => members _ _ _ _ _
            · exact .bind classRange_steady fun _ => members _ _ _ _ _

theorem alternatives_steady (fuel' : Nat) : (∀ fuel, Steady (alternatives fuel) (alternatives fuel')) ∧
    (∀ fuel, Steady (parts fuel) (parts fuel')) ∧ ∀ fuel, Steady (part fuel) (part fuel') := by
  induction fuel' with
  | zero => exact ⟨fun _ => .rejected _, fun _ => .rejected _, fun _ => .rejected _⟩
  | succ fuel' ih =>
      obtain ⟨alternatives, parts, part⟩ := ih
      refine ⟨.of_fuel rfl fun fuel => ?_, .of_fuel rfl fun fuel => ?_, .of_fuel rfl fun fuel => ?_⟩
      · refine .bind (parts fuel) fun first => .bind (take?_steady _) fun _ => .ite ?_ (.pure _)
        exact .bind (alternatives fuel) fun _ => .pure _
      · refine .bind skipBlanks_steady fun _ => .bind peek_steady fun found => ?_
        split
        · exact .pure _
        · exact .pure _
        · exact .pure _
        · exact .bind (part fuel) fun first => .bind (parts fuel) fun _ => .pure _
      · refine .switches_bind (fun r => .bind next_steady fun c => ?_) fun _ _ => rfl
        split
        · refine .bind opening_steady fun opening => ?_
          split
          · refine .bind (.modify (fun _ => rfl) fun _ _ => rfl) fun _ => .bind skipBlanks_steady fun _ => ?_
            refine .bind repetition?_steady fun found => ?_
            split
            · exact .pure _
            · exact .rejected _
          · -- the group is closed behind its alternatives, never inside them
            refine .bind (.modify (fun _ => rfl) fun _ _ => rfl) fun _ => .bind (alternatives fuel) fun body => ?_
            refine .bind (expect_steady _) fun _ => .bind (.modify (fun _ => rfl) fun _ _ => rfl) fun _ => ?_
            exact repeated_steady _ _ _
        · exact .bind ((bracketed_steady fuel').1 fuel) fun _ => repeated_steady _ _ _
        · refine .bind escape_steady fun escape => ?_
          split
          · exact repeated_steady _ _ _
          · exact repeated_steady _ _ _
          · exact repeated_steady _ _ _
        · exact .bind (dot_steady _) fun _ => repeated_steady _ _ _
        · exact repeated_steady _ _ _
        · exact repeated_steady _ _ _
        · exact .ite (.rejected _) (repeated_steady _ _ _)

end Reader
end ParseEngine.Pattern
