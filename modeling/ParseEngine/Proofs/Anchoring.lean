import ParseEngine.Proofs.Fuel
import ParseEngine.Proofs.PatternReading

/-!
Patterns that match only where they are tried.

A pattern is tried at a cursor by searching the remaining text for it, put into a group after a start-of-text condition.
The condition stands before the group, so that a pattern that is well formed by itself is found at the cursor or not at
all. A pattern that closes the group and goes on with another alternative is also found further on.
-/

namespace ParseEngine
namespace Pattern

namespace Reader

variable {fuel fuel' : Nat} {c : Char} {rest source : List Char} {tree alone : Tree} {r r' : Reading}

theorem expect_eq_some (ran : expect c r = some ((), r')) : r.rest = c :: r'.rest := by
  obtain ⟨rest, switches, names⟩ := r
  cases rest with
  | nil => cases ran
  | cons d rest =>
      change (if (d == c) = true then _ else _ : Reader Unit) ⟨rest, switches, names⟩ = _ at ran
      split at ran
      · rename_i same
        cases ran
        rw [beq_iff_eq.1 same]
      · cases ran

theorem parts_eq_some (bar : c ≠ '|') (closing : c ≠ ')')
    (ran : parts (fuel + 1) { rest := c :: rest } = some (tree, r)) :
    ∃ first r₁ more, part fuel { rest := c :: rest } = some (first, r₁) ∧ parts fuel r₁ = some (more, r) ∧
      tree = .both first more := by
  obtain ⟨_, _, blanks, ran⟩ := bind_eq_some.1 ran
  cases blanks
  obtain ⟨found, r₀, peeked, ran⟩ := bind_eq_some.1 ran
  obtain ⟨here, rfl⟩ : found = some c ∧ r₀ = { rest := c :: rest } := by
    cases peeked
    exact ⟨rfl, rfl⟩
  split at ran
  · cases here
  · exact absurd (Option.some.inj here).symm bar
  · exact absurd (Option.some.inj here).symm closing
  · obtain ⟨first, r₁, ran₁, ran⟩ := bind_eq_some.1 ran
    obtain ⟨more, r₂, ran₂, ran⟩ := bind_eq_some.1 ran
    cases ran
    exact ⟨first, r₁, more, ran₁, ran₂, rfl⟩

theorem part_anchor (fuel : Nat) (rest : List Char) : part (fuel + 2) { rest := '^' :: '(' :: rest } =
    some (.look .textStart, { rest := '(' :: rest }) :=
  rfl

theorem part_group (ran : part (fuel + 1) { rest := '(' :: '?' :: ':' :: rest } = some (tree, r)) :
    ∃ body r₁ tail, alternatives fuel { rest } = some (body, r₁) ∧ r₁.rest = ')' :: tail ∧ r.rest <:+ tail := by
  have ran : (do
      modify fun reading => { reading with switches := {} }
      let body ← alternatives fuel
      expect ')'
      modify fun reading => { reading with switches := {} }
      repeated fuel body : Reader Tree) { rest } = some (tree, r) := ran
  obtain ⟨_, _, set, ran⟩ := bind_eq_some.1 ran
  cases set
  obtain ⟨body, r₁, inside, ran⟩ := bind_eq_some.1 ran
  obtain ⟨_, r₂, closed, ran⟩ := bind_eq_some.1 ran
  obtain ⟨_, _, set, ran⟩ := bind_eq_some.1 ran
  cases set
  have shorter := (repeated_steady fuel fuel body).shortens _ _ _ ran
  exact ⟨body, r₁, r₂.rest, inside, expect_eq_some closed, shorter⟩

theorem part_group_whole (ran : part (fuel + 1) { rest := '(' :: '?' :: ':' :: source ++ [')'] } = some (tree, r))
    (read : alternatives fuel' { rest := source } = some (alone, r')) (whole : r'.rest = []) : r.rest = [] := by
  obtain ⟨body, r₁, tail, inside, closes, shorter⟩ := part_group ran
  have last : r₁.rest <:+ [')'] := by
    obtain come | ⟨-, rfl⟩ := ((alternatives_steady fuel).1 fuel').agrees _ [')'] _ _ _ _ read inside
    · exact come
    · rw [Reading.followed_rest, whole]
      exact List.suffix_refl _
  have none : tail = [] := by
    have length := last.length_le
    rw [closes, List.length_cons, List.length_singleton] at length
    exact List.length_eq_zero_iff.1 (by omega)
  rw [none] at shorter
  exact List.suffix_nil.1 shorter

end Reader

open Reader

theorem Tree.read?_eq_some {source : List Char} {tree : Tree} (read : Tree.read? source = some tree) :
    ∃ r, alternatives (4 * source.length + 8) { rest := source } = some (tree, r) ∧ r.rest = [] := by
  unfold Tree.read? at read
  dsimp only at read
  split at read
  · rename_i tree' r ran
    split at read
    · rename_i empty
      cases read
      exact ⟨r, ran, List.isEmpty_iff.1 empty⟩
    · cases read
  · cases read

theorem Tree.read?_anchored {source : String} {tree alone : Tree} (read : Tree.read? (anchored source) = some tree)
    (wellFormed : Tree.read? source.toList = some alone) : ∃ body, tree = .both (.look .textStart) body := by
  obtain ⟨r, ran, -⟩ := Tree.read?_eq_some read
  obtain ⟨r', readAlone, whole⟩ := Tree.read?_eq_some wellFormed
  obtain ⟨fuel, enough⟩ : ∃ fuel, 4 * (anchored source).length + 8 = fuel + 4 := ⟨_, rfl⟩
  rw [enough] at ran
  obtain ⟨first, r₁, ran₁, ran⟩ := bind_eq_some.1 ran
  obtain ⟨anchor, r₂, more, ran₂, ran₃, rfl⟩ := parts_eq_some (by decide) (by decide) ran₁
  cases ran₂.symm.trans (part_anchor _ _)
  obtain ⟨group, r₃, more', ran₄, ran₅, rfl⟩ := parts_eq_some (by decide) (by decide) ran₃
  have ended := part_group_whole ran₄ readAlone whole
  have shorter := ((alternatives_steady _).2.1 (fuel + 1)).shortens _ _ _ ran₅
  rw [ended] at shorter
  obtain ⟨last, switches, names⟩ := r₁
  obtain rfl : last = [] := List.suffix_nil.1 shorter
  -- no bar comes after the group
  cases ran
  exact ⟨_, rfl⟩

namespace Program

variable {program : Program} {before : Option Char} {place : Nat} {threads : List Thread} {found : Option Span}

def Anchored (program : Program) : Prop :=
  ∃ next, program.code[program.entry]? = some (.look .textStart next)

theorem ofTree_anchored (body : Tree) : (ofTree (.both (.look .textStart) body)).Anchored := by
  refine ⟨(compile body 0 #[.accept]).1, ?_⟩
  simp [ofTree, compile, emit]

/-- A thread that started at the beginning of the text, or that has not passed the first instruction anywhere else. -/
def Early (program : Program) (before : Option Char) (thread : Thread) : Prop :=
  thread.start = 0 ∨ thread.instruction = program.entry ∧ before.isSome = true

theorem Anchored.start_eq_zero (anchored : program.Anchored) {thread : Thread} (early : program.Early before thread)
    {instruction : Instruction} (here : program.code[thread.instruction]? = some instruction)
    (passes : ∀ next, instruction = .look .textStart next → before.isSome = false) : thread.start = 0 := by
  obtain ⟨next, entry⟩ := anchored
  obtain start | ⟨first, later⟩ := early
  · exact start
  · rw [first, entry] at here
    cases here
    rw [passes next rfl] at later
    cases later

theorem settle_starts (anchored : program.Anchored) (after : Option Char) (fuel : Nat) (seen : List Nat)
    {stack settled : List Thread} (early : ∀ thread ∈ stack, program.Early before thread)
    (done : ∀ thread ∈ settled, thread.start = 0) :
    ∀ thread ∈ program.settle before after fuel stack seen settled, thread.start = 0 := by
  fun_induction settle program before after fuel stack seen settled with
  | case1 => simpa using done
  | case2 => simpa using done
  | case3 fuel thread stack seen settled _ ih => exact ih (List.forall_mem_cons.1 early).2 done
  | case4 fuel thread stack seen settled _ _ _ ih => exact ih (List.forall_mem_cons.1 early).2 done
  | case5 fuel thread stack seen settled _ _ first second here ih =>
      obtain ⟨top, early⟩ := List.forall_mem_cons.1 early
      have start : thread.start = 0 := anchored.start_eq_zero top here fun _ same => nomatch same
      exact ih (List.forall_mem_cons.2 ⟨.inl start, List.forall_mem_cons.2 ⟨.inl start, early⟩⟩) done
  | case6 fuel thread stack seen settled _ _ condition next here holds ih =>
      obtain ⟨top, early⟩ := List.forall_mem_cons.1 early
      have start : thread.start = 0 := by
        refine anchored.start_eq_zero top here fun _ same => ?_
        cases same
        simpa [Look.holds] using holds
      exact ih (List.forall_mem_cons.2 ⟨.inl start, early⟩) done
  | case7 fuel thread stack seen settled _ _ condition next here holds ih =>
      exact ih (List.forall_mem_cons.1 early).2 done
  | case8 fuel thread stack seen settled _ _ set next here ih =>
      obtain ⟨top, early⟩ := List.forall_mem_cons.1 early
      have start : thread.start = 0 := anchored.start_eq_zero top here fun _ same => nomatch same
      exact ih early (List.forall_mem_cons.2 ⟨start, done⟩)
  | case9 fuel thread stack seen settled _ _ here ih =>
      obtain ⟨top, early⟩ := List.forall_mem_cons.1 early
      have start : thread.start = 0 := anchored.start_eq_zero top here fun _ same => nomatch same
      exact ih early (List.forall_mem_cons.2 ⟨start, done⟩)

theorem untilAccept_starts (program : Program) (place : Nat) (starts : ∀ thread ∈ threads, thread.start = 0) :
    (∀ thread ∈ (program.untilAccept place threads).1, thread.start = 0) ∧
      ∀ span, (program.untilAccept place threads).2 = some span → span.start = 0 := by
  induction threads with
  | nil => simp [untilAccept]
  | cons thread threads ih =>
      obtain ⟨top, starts⟩ := List.forall_mem_cons.1 starts
      obtain ⟨kept, accepted⟩ := ih starts
      unfold untilAccept
      split
      · simpa using top
      · exact ⟨List.forall_mem_cons.2 ⟨top, kept⟩, accepted⟩

theorem visit_starts (anchored : program.Anchored) (after : Option Char) (starts : ∀ thread ∈ threads, thread.start = 0)
    (first : ∀ span, found = some span → span.start = 0) (begins : place = 0 ∨ before.isSome = true) :
    (∀ thread ∈ (program.visit before after place threads found).1, thread.start = 0) ∧
      ∀ span, (program.visit before after place threads found).2 = some span → span.start = 0 := by
  have early : ∀ thread ∈ if found.isNone = true then threads ++ [⟨program.entry, place⟩] else threads,
      program.Early before thread := by
    split
    · intro thread member
      obtain member | member := List.mem_append.1 member
      · exact .inl (starts thread member)
      · obtain rfl := List.mem_singleton.1 member
        exact begins.imp id fun later => ⟨rfl, later⟩
    · exact fun thread member => .inl (starts thread member)
  have settled (fuel : Nat) := settle_starts anchored after fuel [] early (List.forall_mem_nil _)
  obtain ⟨kept, accepted⟩ := untilAccept_starts program place (settled _)
  refine ⟨kept, fun span best => ?_⟩
  simp only [visit, Option.orElse_eq_orElse, Option.orElse_eq_or, Option.or_eq_some_iff] at best
  obtain now | ⟨-, earlier⟩ := best
  · exact accepted span now
  · exact first span earlier

theorem step?_start {c : Char} {thread next : Thread} (went : program.step? c thread = some next) :
    next.start = thread.start := by
  unfold step? at went
  split at went
  · split at went
    · cases went
      rfl
    · cases went
  · cases went

theorem scan_starts (anchored : program.Anchored) (starts : ∀ thread ∈ threads, thread.start = 0)
    (first : ∀ span, found = some span → span.start = 0) (begins : place = 0 ∨ before.isSome = true)
    (text : List Char) : ∀ span, program.scan before place threads found text = some span → span.start = 0 := by
  induction text generalizing before place threads found with
  | nil => exact (visit_starts anchored none starts first begins).2
  | cons c rest ih =>
      obtain ⟨kept, best⟩ := visit_starts anchored (some c) starts first begins
      unfold scan
      dsimp only
      split
      · exact best
      · refine ih (fun next member => ?_) best (.inr rfl)
        obtain ⟨thread, member, went⟩ := List.mem_filterMap.1 member
        rw [step?_start went]
        exact kept thread member

theorem find?_start (anchored : program.Anchored) {text : List Char} {span : Span}
    (found : program.find? text = some span) : span.start = 0 :=
  scan_starts anchored (by simp) (by simp) (.inl rfl) text span found

end Program

theorem Program.Anchored.skipped_eq_nil {program : Program} (anchored : program.Anchored)
    {text skipped matched : List Char} (found : program.slices? text = some (skipped, matched)) : skipped = [] := by
  obtain ⟨span, spans, same⟩ := Option.map_eq_some_iff.1 found
  cases same
  rw [Program.find?_start anchored spans]
  rfl

theorem anchored_of_wellFormed {source : String} {p : Pattern} (read : ofString? source = some p)
    (wellFormed : (Tree.read? source.toList).isSome = true) :
    ∃ program : Program, program.Anchored ∧ p.find? = program.slices? := by
  obtain ⟨alone, wellFormed⟩ := Option.isSome_iff_exists.1 wellFormed
  obtain ⟨tree, whole, read⟩ := Option.bind_eq_some_iff.1 read
  obtain ⟨body, rfl⟩ := Tree.read?_anchored whole wellFormed
  split at read
  · cases read
    exact ⟨_, Program.ofTree_anchored body, rfl⟩
  · cases read

end Pattern

def Cursor.Spans (c : Cursor) (slice : List Char) (d : Cursor) : Prop :=
  ∃ before after, c.text = before ++ slice ++ after ∧ c.index = Text.byteLength before ∧
    d = { c with index := Text.byteLength (before ++ slice) }

theorem Cursor.Spans.whole_iff {c d : Cursor} {skipped matched : List Char} (spans : c.Spans (skipped ++ matched) d) :
    c.Spans matched d ↔ skipped = [] := by
  constructor
  · rintro ⟨before', after', text', index', moved'⟩
    obtain ⟨before, after, text, index, moved⟩ := spans
    have same : Text.byteLength (before ++ (skipped ++ matched)) = Text.byteLength (before' ++ matched) :=
      congrArg Cursor.index (moved.symm.trans moved')
    simp only [Text.byteLength_append] at same
    refine Classical.byContradiction fun some => ?_
    have := Text.byteLength_pos some
    omega
  · rintro rfl
    exact spans

namespace Prim

variable {p : Pattern} {c : Cursor} {rest skipped matched : List Char}

theorem run_pattern_missing (remains : c.remaining = .ok rest) (missing : p.find? rest = none) :
    ∃ message found, (Prim.pattern p).run c = .ok (.failure message c found) := by
  refine ⟨"Expected " ++ ("/" ++ p.source ++ "/"), Cursor.previewOf rest, ?_⟩
  simp only [run, runPattern, remains, ok_bind, missing, expected, Outcome.failAt, Cursor.preview]
  rfl

theorem run_pattern_found (remains : c.remaining = .ok rest) (found : p.find? rest = some (skipped, matched)) :
    ∃ d, (Prim.pattern p).run c = .ok (.success (.text (String.ofList matched)) d) ∧
      c.Spans (skipped ++ matched) d := by
  obtain ⟨before, _, remains', split, size⟩ := (Cursor.fits_of_remaining remains).remaining
  cases remains.symm.trans remains'
  obtain ⟨after, rfl⟩ := p.leads found
  have text : c.text = before ++ (skipped ++ matched) ++ after := by
    rw [List.append_assoc]
    exact split
  have inside : c.index + Text.byteLength (skipped ++ matched) ≤ c.length := by
    simp only [Cursor.length, text, Text.byteLength_append, size]
    omega
  refine ⟨{ c with index := c.index + Text.byteLength (skipped ++ matched) }, ?_, before, after, text, size.symm, ?_⟩
  · simp only [run, runPattern, remains, ok_bind, found, Cursor.advance, Cursor.moveTo, if_pos inside]
    rfl
  · rw [Text.byteLength_append before, size]

end Prim

namespace Grammar

/-- A pattern fails where it is tried, and only if it is not found in the text from there on. Where it succeeds, its
value ends the text that it consumes, and is all of that text if and only if nothing comes before the match. Nothing
does where the pattern is found by a program that begins with the start-of-text condition. -/
theorem pattern_yields_consumed (g : Grammar) (p : Pattern) (c : Cursor) (s : Session) (rest : List Char)
    (remains : c.remaining = .ok rest) :
    ∃ o, g.Evaluates (.prim (.pattern p)) c s o s ∧
      (∀ message d found, o = .failure message d found → d = c ∧ p.find? rest = none) ∧
      (∀ v d, o = .success v d → ∃ skipped matched, p.find? rest = some (skipped, matched) ∧
        c.Spans (skipped ++ matched) d ∧ v = .text (String.ofList matched) ∧ (c.Spans matched d ↔ skipped = [])) ∧
      ∀ program : Pattern.Program, program.Anchored → p.find? = program.slices? → ∀ v d, o = .success v d →
        ∃ matched, v = .text (String.ofList matched) ∧ c.Spans matched d := by
  cases found : p.find? rest with
  | none =>
      obtain ⟨message, shown, ran⟩ := Prim.run_pattern_missing remains found
      refine ⟨_, Evaluates.prim_iff.2 ⟨ran, rfl⟩, fun _ d _ same => ?_, nofun, nofun⟩
      cases same
      exact ⟨rfl, rfl⟩
  | some span =>
      obtain ⟨skipped, matched⟩ := span
      obtain ⟨d, ran, spans⟩ := Prim.run_pattern_found remains found
      refine ⟨_, Evaluates.prim_iff.2 ⟨ran, rfl⟩, nofun, fun v d' same => ?_,
        fun program anchored compiled v d' same => ?_⟩
      · cases same
        exact ⟨skipped, matched, rfl, spans, rfl, spans.whole_iff⟩
      · cases same
        rw [compiled] at found
        obtain rfl := anchored.skipped_eq_nil found
        exact ⟨matched, rfl, spans⟩

theorem pattern_yields_consumed_second_choice :
    let place (index : Nat) : Cursor := ⟨['x', 'a', 'b'], index, none⟩
    ∃ p, Pattern.ofString? "b|ab" = some p ∧
      Grammar.Evaluates {} (.prim (.pattern p)) (place 1) {} (.success (.text "ab") (place 3)) {} ∧
      (∃ matched, Value.text "ab" = .text (String.ofList matched) ∧ (place 1).Spans matched (place 3)) ∧
      Grammar.Evaluates {} (.prim (.pattern p)) (place 0) {} (.failure "Expected /b|ab/" (place 0) "\"xab\"") {} ∧
      p.find? ['x', 'a', 'b'] = none := by
  intro place
  refine ⟨_, rfl, ?_⟩
  have read : Pattern.ofString? "b|ab" = some _ := rfl
  obtain ⟨program, anchored, compiled⟩ := Pattern.anchored_of_wellFormed read rfl
  have yields (index : Nat) (rest : List Char) (remains : (place index).remaining = .ok rest) (p : Pattern)
      (_ : Pattern.ofString? "b|ab" = some p) := pattern_yields_consumed {} p (place index) {} rest remains
  obtain ⟨o, ran, -, -, whole⟩ := yields 1 ['a', 'b'] rfl _ read
  obtain ⟨o', ran', fails, -, -⟩ := yields 0 ['x', 'a', 'b'] rfl _ read
  cases (Evaluates.prim_iff.1 ran).1
  cases (Evaluates.prim_iff.1 ran').1
  exact ⟨ran, whole program anchored compiled _ _ rfl, ran', (fails _ _ _ rfl).2⟩

/-- The pattern closes the group around it, and its second half is searched for in the whole text: the value is not all
that was consumed. -/
theorem pattern_escapes_anchor :
    let place (index : Nat) : Cursor := ⟨['x', 'b'], index, none⟩
    ∃ p, Pattern.ofString? "a)|(?:b" = some p ∧
      Grammar.Evaluates {} (.prim (.pattern p)) (place 0) {} (.success (.text "b") (place 2)) {} ∧
      ¬(place 0).Spans ['b'] (place 2) := by
  intro place
  refine ⟨_, rfl, ⟨1, rfl⟩, ?_⟩
  rintro ⟨before, after, -, start, stop⟩
  have start : 0 = Text.byteLength before := start
  have stop : 2 = Text.byteLength (before ++ ['b']) := congrArg Cursor.index stop
  have size : Text.byteLength ['b'] = 1 := rfl
  rw [Text.byteLength_append, ← start, size] at stop
  cases stop

end Grammar
end ParseEngine
