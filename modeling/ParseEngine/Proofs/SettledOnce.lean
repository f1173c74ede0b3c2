import Mathlib.Data.Bool.Basic
import ParseEngine.Proofs.Foundation
import ParseEngine.Proofs.Watching

/-!
How often the body of a memoized rule settles.

The evaluations of bodies are events of a run. An evaluation settles if it reads no seed of a rule that was in flight
when it started. Every settled evaluation of a memoized body finds its key still free and takes it, and nothing frees a
key again; so there is at most one for every index.
-/

namespace ParseEngine

structure Completion where
  rule : Nat
  index : Nat
  before : Session
  after : Session

namespace Completion

def key (x : Completion) : Key :=
  ⟨.rule x.rule, x.index⟩

def settled (x : Completion) : Bool :=
  !x.after.readsBelow x.before.growing.length

def settles (key : Key) (x : Completion) : Bool :=
  x.settled && decide (x.key = key)

theorem unread {x : Completion} (settled : x.settled = true) : x.after.readsBelow x.before.growing.length = false := by
  simpa [Completion.settled] using settled

end Completion

theorem Session.remembers_of_memo {s t : Session} (memo : t.memo = s.memo) (key : Key) :
    t.remembers key = s.remembers key := by
  rw [remembers, memo]
  rfl

theorem Session.remember_misses (s : Session) (key : Key) (entry : Entry) :
    (s.remember key entry).2.memoMisses = s.memoMisses := by
  unfold remember
  split <;> rfl

theorem Session.kept_misses (s t : Session) (key : Key) (o : Outcome) :
    (s.kept t key o).memoMisses = t.memoMisses := by
  unfold kept
  split
  · rfl
  · exact remember_misses _ key _

namespace Grammar

def memoizes (g : Grammar) (r : Nat) : Bool :=
  g.rules[r]?.any (·.mode = .memo)

/-- After the evaluation an outcome is remembered: that of a memoized body, if it is settled, or that of a growth, after
its last pass. -/
def Writes (g : Grammar) (x : Completion) : Prop :=
  g.memoizes x.rule = true ∧ x.settled = true ∨ g.Grows x.key.parser

def bodyWatch : Watch Completion where
  ended r c s t := [⟨r, c.index, s, t⟩]

structure Settling (g : Grammar) (s : Session) (ends : List Completion) (t : Session) : Prop where
  misses : s.memoMisses + ends.countP (g.memoizes ·.rule) = t.memoMisses
  taken : ∀ r index, g.memoizes r = true →
    ends.countP (·.settles ⟨.rule r, index⟩) + (s.remembers ⟨.rule r, index⟩).toNat ≤
      (t.remembers ⟨.rule r, index⟩).toNat
  unwritten : ∀ x ∈ ends, g.Writes x → x.after.remembers x.key = false

def settling (g : Grammar) (st : Setting) : Account Completion where
  allowed := g.InterceptFree
  ready s := s.Sound g st ∧ g.Founded st s.memo
  holds := g.Settling

variable {g : Grammar} {st : Setting} {r : Nat} {rule : Rule} {s t u : Session} {ends : List Completion}

theorem memoizes_rule (found : g.rules[r]? = some rule) : g.memoizes r = true ↔ rule.mode = .memo := by
  simp [memoizes, found]

theorem grows_rule (found : g.rules[r]? = some rule) : g.Grows (.rule r) ↔ rule.mode = .leftRecursive := by
  simp [Grows, found]

namespace Settling

theorem still (memo : t.memo = s.memo) (misses : t.memoMisses = s.memoMisses) : g.Settling s [] t where
  misses := misses.symm
  taken r index _ := by simp [Session.remembers_of_memo memo]
  unwritten _ member := nomatch member

theorem append {base : Session} {x : Completion} (before : g.Settling base ends t) (memo : base.memo = s.memo)
    (misses : s.memoMisses + (ends ++ [x]).countP (g.memoizes ·.rule) = u.memoMisses)
    (kept : ∀ key, t.remembers key = true → u.remembers key = true)
    (takes : g.memoizes x.rule = true → x.settled = true → t.remembers x.key = false ∧ u.remembers x.key = true)
    (unwritten : g.Writes x → x.after.remembers x.key = false) : g.Settling s (ends ++ [x]) u where
  misses := misses
  taken r index memoizes := by
    have counted := before.taken r index memoizes
    rw [Session.remembers_of_memo memo] at counted
    rw [List.countP_append, List.countP_singleton]
    split
    · rename_i settles
      obtain ⟨settled, same⟩ : x.settled = true ∧ x.key = ⟨.rule r, index⟩ := by
        simpa [Completion.settles] using settles
      obtain ⟨free, taken⟩ := takes (by cases same; exact memoizes) settled
      rw [same] at free taken
      simp only [free, taken, Bool.toNat_false, Bool.toNat_true] at counted ⊢
      omega
    · have le := Bool.toNat_le_toNat (kept ⟨.rule r, index⟩)
      omega
  unwritten y member := by
    rcases List.mem_append.1 member with early | late
    · exact before.unwritten y early
    · exact List.mem_singleton.1 late ▸ unwritten

end Settling

theorem settling_composes (g : Grammar) (st : Setting) : (g.settling st).Composes where
  still quiet := .still quiet.memo quiet.misses
  trans {s t t' u ends later} first second quiet _ := by
    refine ⟨?_, fun r index memoizes => ?_, fun x member => ?_⟩
    · have counted := first.misses
      have counted' := second.misses
      rw [quiet.misses] at counted'
      rw [List.countP_append]
      omega
    · have counted := first.taken r index memoizes
      have counted' := second.taken r index memoizes
      rw [Session.remembers_of_memo quiet.memo] at counted'
      rw [List.countP_append]
      omega
    · rcases List.mem_append.1 member with early | late
      · exact first.unwritten x early
      · exact second.unwritten x late
  resume holds := ⟨holds.misses, holds.taken, holds.unwritten⟩
  remember {s} key entry := by
    refine ⟨(s.remember_misses key entry).symm, fun r index _ => ?_, fun _ member => nomatch member⟩
    rw [List.countP_nil, Nat.zero_add]
    refine Bool.toNat_le_toNat fun known => ?_
    obtain ⟨found, known⟩ := Option.isSome_iff_exists.1 known
    rw [Session.remembers, (s.remember_continues key entry).memo _ found known]
    rfl

theorem settling_lawful (g : Grammar) (text : List Char) :
    (g.settling ⟨text, true, true⟩).Lawful g ⟨text, true, true⟩ bodyWatch where
  toComposes := g.settling_composes _
  part free part := free.part part
  body free found := free.body found
  free free _ := free
  sound ready := ready.1
  tables ready memo growing := ⟨ready.1.congr memo growing, memo ▸ ready.2⟩
  ran free fits ready ran :=
    ⟨((run_advances _ _ (fun _ => free) fits ready.1).result ran).sound,
      (run_extends rfl rfl free fits ready.1 ready.2 ran).founded⟩
  begins found mode fits ready idle miss follows :=
    ⟨ready.1.begin ⟨_, _, rfl, found, mode⟩ (fun _ _ => Runner.miss_unknown ready.1 fits rfl rfl miss) follows, ready.2⟩
  grows ready top idle follows := ⟨ready.1.grow top idle follows, ready.2⟩
  planted free := absurd (.self _) (free _ _)
  vain fits ready miss := by
    -- every entry is of the right shape, so none is looked up in vain
    have unknown := Session.remembers_eq_false.2 (Runner.miss_unknown ready.1 fits rfl rfl miss)
    rw [Session.asked, unknown]
    exact .still rfl rfl
  read ready inFlight := .still rfl rfl
  ended {r rule c s fuel o t ends} free found mode fits ready inFlight ran holds := by
    have advances := (run_advances _ _ (fun _ => free.body found) fits ready.1).result ran
    have other : g.memoizes r = false := by simp [memoizes, found, mode]
    refine Settling.append holds rfl ?_ (fun _ known => known) ?_ ?_
    · simpa [other] using holds.misses
    · simp [other]
    · rintro (⟨memoizes, -⟩ | grows)
      · simp [other] at memoizes
      · obtain ⟨growth, top⟩ := Option.isSome_iff_exists.1 (inFlight ((grows_rule found).1 grows))
        rw [← advances.continues.growing] at top
        exact Session.remembers_eq_false.2 (advances.sound.apart rfl rfl _ growth top)
  memo {r rule c s fuel o t ends} free found mode fits ready miss ran holds := by
    have missed : s.missed.Sound g ⟨text, true, true⟩ := ready.1.congr rfl rfl
    have memoizes := (memoizes_rule found).2 mode
    have unwritten (unread : t.readsBelow s.growing.length = false) : t.remembers ⟨.rule r, c.index⟩ = false :=
      Session.remembers_eq_false.2 (memo_unwritten rfl rfl (free.body found) found mode fits missed ready.2
        (Runner.miss_unknown ready.1 fits rfl rfl miss) ran unread)
    refine Settling.append holds rfl ?_ ?_ ?_ ?_
    · have counted : s.memoMisses + 1 + ends.countP (g.memoizes ·.rule) = t.memoMisses := holds.misses
      simp only [Session.kept_misses, List.countP_append, List.countP_singleton, memoizes, if_true]
      omega
    · intro key known
      simp [Session.remembers_kept, known]
    · intro _ settled
      have unread : t.readsBelow s.growing.length = false := Completion.unread settled
      simp [Session.remembers_kept, Completion.key, unread, unwritten]
    · rintro (⟨-, settled⟩ | grows)
      · exact unwritten (Completion.unread settled)
      · have mode' := (grows_rule found).1 grows
        rw [mode] at mode'
        cases mode'

/-- A run from a fresh session that returns has a list of the evaluations of bodies in it, with as many of memoized
bodies as the session has counted misses. At most one of a memoized body at an index settles; and what a memoized rule
or a growth remembers at its end is always added to the table. -/
theorem memo_settles_once (g : Grammar) (e : Expr) (c : Cursor) (options : Options) (journal : Journal) (fuel : Nat)
    (o : Outcome) (t : Session) (free : g.InterceptFree e) (boundary : (Text.dropBytes? c.index c.text).isSome)
    (plain : c.context = none) (ran : g.run fuel e c (.fresh options journal) = .ok (o, t)) : ∃ ends : List Completion,
      (∀ alarm stop, bodyWatch.run g alarm stop fuel e c (.fresh options journal) =
        if ends.any alarm then .error stop else .ok (o, t)) ∧
      ends.countP (g.memoizes ·.rule) = t.memoMisses ∧
      (∀ r index, g.memoizes r = true → ends.countP (·.settles ⟨.rule r, index⟩) ≤ 1) ∧
      ∀ x ∈ ends, g.Writes x → ∀ entry, (x.after.remember x.key entry).1 = true := by
  have fits : c.Fits ⟨c.text, true, true⟩ := ⟨rfl, boundary, fun _ => plain⟩
  have ready : (g.settling ⟨c.text, true, true⟩).ready (.fresh options journal) := ⟨.fresh options journal, trivial⟩
  obtain ⟨ends, noticed, settling⟩ := (g.settling_lawful c.text).run_gives free fits ready ran
  refine ⟨ends, noticed, ?_, fun r index memoizes => ?_, fun x member writes entry => ?_⟩
  · have counted : 0 + ends.countP (g.memoizes ·.rule) = t.memoMisses := settling.misses
    rwa [Nat.zero_add] at counted
  · calc ends.countP (·.settles ⟨.rule r, index⟩)
      _ ≤ (t.remembers ⟨.rule r, index⟩).toNat := Nat.le_of_add_right_le (settling.taken r index memoizes)
      _ ≤ 1 := Bool.toNat_le _
  · simp [Session.remember, settling.unwritten x member writes]

theorem memo_settles_once_reentered :
    let g : Grammar := { rules := [
      ⟨.memo, "sum", .rule 1⟩,
      ⟨.leftRecursive, "rounds", .orElse (.sequence [.rule 0, .prim (.literal "+"), .prim .digit]) (.prim .digit)⟩] }
    let c : Cursor := ⟨['1', '+', '2', '+', '3'], 0, none⟩
    ∃ o t, g.run 12 (.rule 0) c (.fresh {} {}) = .ok (o, t) ∧ ∃ ends : List Completion,
      (∀ alarm stop, bodyWatch.run g alarm stop 12 (.rule 0) c (.fresh {} {}) =
        if ends.any alarm then .error stop else .ok (o, t)) ∧
      ends.countP (g.memoizes ·.rule) = 5 ∧ ends.countP (·.settles ⟨.rule 0, 0⟩) ≤ 1 := by
  intro g c
  have free : g.InterceptFree (.rule 0) := .of_isSimple rfl rfl
  have misses : (g.run 12 (.rule 0) c (.fresh {} {})).toOption.map (·.2.memoMisses) = some 5 := by decide +kernel
  cases ran : g.run 12 (.rule 0) c (.fresh {} {}) with
  | error halt => simp [ran, Except.toOption] at misses
  | ok r =>
      obtain ⟨o, t⟩ := r
      simp only [ran, Except.toOption, Option.map_some, Option.some.injEq] at misses
      obtain ⟨ends, noticed, counted, once, -⟩ := memo_settles_once g (.rule 0) c {} {} 12 o t free (by decide) rfl ran
      exact ⟨o, t, rfl, ends, noticed, counted.trans misses, once 0 0 rfl⟩

end Grammar
end ParseEngine
