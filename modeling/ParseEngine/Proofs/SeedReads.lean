import ParseEngine.Proofs.Watching

/-!
Which seeds an evaluation has read.

A session keeps a single depth of the reads of an evaluation, the least one. As every rule in flight has the number of
those below it as its depth, and a rule that began later lies above, this depth decides for every evaluation that is
still running whether it has read the seed of a rule that was in flight when it started.
-/

namespace ParseEngine

def Layered : List (Key × Growth) → Prop
  | [] => True
  | entry :: rest => entry.2.depth = rest.length ∧ Layered rest

namespace Layered
variable {growing upper base : List (Key × Growth)} {entry : Key × Growth}

theorem lt (layered : Layered growing) (member : entry ∈ growing) : entry.2.depth < growing.length := by
  induction growing with
  | nil => cases member
  | cons top rest ih =>
      rcases List.mem_cons.1 member with rfl | member
      · rw [layered.1]
        exact Nat.lt_succ_self _
      · exact Nat.lt_succ_of_lt (ih layered.2 member)

theorem below (layered : Layered (upper ++ base)) : Layered base := by
  induction upper with
  | nil => exact layered
  | cons top upper ih => exact ih layered.2

theorem le_above (layered : Layered (upper ++ base)) (member : entry ∈ upper) : base.length ≤ entry.2.depth := by
  induction upper with
  | nil => cases member
  | cons top upper ih =>
      rcases List.mem_cons.1 member with rfl | member
      · have depth : entry.2.depth = (upper ++ base).length := layered.1
        rw [depth, List.length_append]
        exact Nat.le_add_left _ _
      · exact ih layered.2 member

theorem depth_lt_iff (layered : Layered growing) (member : entry ∈ growing) (lower : base <:+ growing) :
    entry.2.depth < base.length ↔ entry ∈ base := by
  obtain ⟨upper, rfl⟩ := lower
  constructor
  · intro less
    rcases List.mem_append.1 member with above | inside
    · exact absurd (layered.le_above above) (Nat.not_le_of_lt less)
    · exact inside
  · exact layered.below.lt

end Layered

namespace Grammar

def seedWatch : Watch (Key × Growth) where
  read entry := [entry]

/-- The reads noted by the session are those of the evaluation, as far as depths tell them apart; and they tell apart
which of the rules read were in flight at the start. -/
def reading (g : Grammar) (st : Setting) : Account (Key × Growth) where
  allowed _ := True
  ready s := s.Sound g st ∧ Layered s.growing
  holds s reads t :=
    (∀ depth, t.readsBelow depth = (s.readsBelow depth || reads.any fun entry => entry.2.depth < depth)) ∧
      ∀ entry ∈ reads, ∀ base, base <:+ s.growing → (entry.2.depth < base.length ↔ entry ∈ base)

variable {g : Grammar} {text : List Char} {c : Cursor} {s t : Session} {o : Outcome}

theorem reading_composes (g : Grammar) (st : Setting) : (g.reading st).Composes where
  still quiet := ⟨fun depth => by simp [Session.readsBelow_congr quiet.read], fun _ member => nomatch member⟩
  trans := by
    rintro s t t' u reads later ⟨first, inside⟩ ⟨second, inside'⟩ quiet lower
    refine ⟨fun depth => ?_, fun entry member base suffix => ?_⟩
    · rw [second, Session.readsBelow_congr quiet.read, first, List.any_append, Bool.or_assoc]
    · rcases List.mem_append.1 member with early | late
      · exact inside entry early base suffix
      · exact inside' entry late base (suffix.trans lower)
  resume := by
    rintro s t reads ⟨noted, inside⟩
    refine ⟨fun depth => ?_, inside⟩
    rw [Session.readsBelow_resume, noted]
    rfl
  remember {s} key entry := by
    refine ⟨fun depth => ?_, fun _ member => nomatch member⟩
    have read : (s.remember key entry).2.shallowestRead = s.shallowestRead := by
      unfold Session.remember
      split <;> rfl
    simp [Session.readsBelow_congr read]

theorem reading_lawful (g : Grammar) (text : List Char) :
    (g.reading ⟨text, false, false⟩).Lawful g ⟨text, false, false⟩ seedWatch where
  toComposes := g.reading_composes _
  part _ _ := trivial
  body _ _ := trivial
  free _ closed := nomatch closed
  sound ready := ready.1
  tables ready memo growing := ⟨ready.1.congr memo growing, growing ▸ ready.2⟩
  ran _ fits ready ran := by
    have advances := (run_advances _ _ (fun closed => absurd closed Bool.false_ne_true) fits ready.1).result ran
    exact ⟨advances.sound, advances.continues.growing ▸ ready.2⟩
  begins found mode fits ready idle miss follows :=
    ⟨ready.1.begin ⟨_, _, rfl, found, mode⟩ (fun plain => nomatch plain) follows, rfl, ready.2⟩
  grows ready top idle follows := by
    refine ⟨ready.1.grow top idle follows, ?_⟩
    have layered := ready.2
    rw [top] at layered
    rw [Session.grow_growing top idle]
    exact layered
  planted {name label v asByte p c s} _ fits ready := by
    refine ⟨ready.1.remember ?_ (fun plain => nomatch plain), ?_⟩
    · split
      · exact fun closed => nomatch closed
      · exact ⟨fits, Nat.le_refl _⟩
    · rw [Session.remember_growing]
      exact ready.2
  vain {r c s} _ _ _ := by
    refine ⟨fun depth => ?_, fun _ member => nomatch member⟩
    simp [Session.readsBelow_congr (Session.Alike.asked s _).read]
  read {s key growth} ready inFlight := by
    refine ⟨fun depth => ?_, fun entry member base lower => ?_⟩
    · rw [Session.readsBelow_reread]
      simp [seedWatch]
    · rw [List.mem_singleton.1 member]
      exact ready.2.depth_lt_iff (Session.mem_of_lookup inFlight) lower
  ended _ _ _ _ _ _ _ holds := by
    rw [show seedWatch.ended _ _ _ _ = [] from rfl, List.append_nil]
    exact holds
  memo {r rule c s fuel o t reads} _ found _ fits ready _ ran holds := by
    rw [show seedWatch.ended _ _ _ _ = [] from rfl, List.append_nil]
    have composes := g.reading_composes ⟨text, false, false⟩
    have missed : s.missed.Sound g ⟨text, false, false⟩ := ready.1.congr rfl rfl
    have advances :=
      (run_advances fuel rule.body (fun closed => absurd closed Bool.false_ne_true) fits missed).result ran
    have growing : s.growing <:+ t.growing := advances.continues.growing ▸ List.suffix_rfl
    have untracked : (g.reading ⟨text, false, false⟩).holds s.untracked reads t := holds
    exact composes.kept untracked growing

theorem Reachable.layered {st : Setting} (reachable : g.Reachable st s) : Layered s.growing := by
  induction reachable with
  | fresh options journal => trivial
  | noted _ f ih => exact ih
  | ran before free fits ran ih =>
      rw [((run_advances _ _ free fits before.sound).result ran).continues.growing]
      exact ih
  | missed _ ih => exact ih
  | seeded _ _ _ _ _ _ _ ih => exact ⟨rfl, ih⟩
  | @grown s t r rule c fuel pass growth base before free found fits top idle ran _ ih =>
      have advances := (run_advances _ _ (fun closed => (free closed).body found) fits before.sound).result ran
      rw [top] at ih
      change Layered (t.grow ⟨.rule r, c.index⟩ pass).growing
      rw [Session.grow_growing (advances.continues.growing.trans top) idle]
      exact ih

inductive Tracks (g : Grammar) (fuel : Nat) (c : Cursor) (s : Session) :
    (Session → Except Halt (Outcome × Session)) →
    ((Key × Growth → Bool) → Halt → Session → Except Halt (Outcome × Session)) → Prop
  | run (e : Expr) : Tracks g fuel c s (g.run fuel e c) fun alarm stop => seedWatch.run g alarm stop fuel e c
  | growth {r : Nat} {rule : Rule} (found : g.rules[r]? = some rule) (mode : rule.mode = .leftRecursive)
      (idle : s.growing.lookup ⟨.rule r, c.index⟩ = none)
      (miss : (s.memo.lookup ⟨.rule r, c.index⟩).bind (·.outcome? c.context.isSome) = none) :
      Tracks g fuel c s (Runner.growSeed (.rule r) rule.title (g.run fuel rule.body) c) fun alarm stop =>
        Runner.growSeed (.rule r) rule.title (seedWatch.body alarm stop r (seedWatch.run g alarm stop fuel rule.body)) c

theorem Tracks.gives {fuel : Nat} {evaluate : Session → Except Halt (Outcome × Session)}
    {watched : (Key × Growth → Bool) → Halt → Session → Except Halt (Outcome × Session)}
    (tracks : g.Tracks fuel c s evaluate watched) (fits : c.Fits ⟨text, false, false⟩)
    (ready : (g.reading ⟨text, false, false⟩).ready s) (ran : evaluate s.untracked = .ok (o, t)) :
    (g.reading ⟨text, false, false⟩).Gives s.untracked (fun alarm stop => watched alarm stop s.untracked) (o, t) := by
  have lawful := g.reading_lawful text
  have ready' : (g.reading ⟨text, false, false⟩).ready s.untracked := lawful.tables ready rfl rfl
  cases tracks with
  | run e => exact lawful.run_gives trivial fits ready' ran
  | growth found mode idle miss =>
      exact (lawful.growSeed_gives trivial found fits (fun _ _ _ ready ran => lawful.run_gives trivial fits ready ran)
        mode ready' idle miss ran).2

/-- A tracked evaluation in a sound session, with rules in flight as runs on the text can have them, has a list of the
rules whose seeds it has read. It is provisional exactly if one of them was in flight when it started; and for every
evaluation around it, which started when the stack was as low as `base`, a read is noted exactly if one was noted
before or one of them lies in `base`. -/
theorem tracked_exact (g : Grammar) (c : Cursor) (s s' : Session) (fuel : Nat)
    (evaluate : Session → Except Halt (Outcome × Session))
    (watched : (Key × Growth → Bool) → Halt → Session → Except Halt (Outcome × Session)) (o : Outcome)
    (provisional : Bool) (t : Session) (boundary : (Text.dropBytes? c.index c.text).isSome)
    (reachable : g.Reachable ⟨c.text, false, false⟩ s') (growing : s.growing = s'.growing)
    (sound : s.Sound g ⟨c.text, false, false⟩) (tracks : g.Tracks fuel c s evaluate watched)
    (ran : s.tracked evaluate = .ok (o, provisional, t)) : ∃ reads : List (Key × Growth),
      (∀ alarm stop, s.tracked (watched alarm stop) =
        if reads.any alarm then .error stop else .ok (o, provisional, t)) ∧
      (provisional = true ↔ ∃ entry ∈ reads, entry ∈ s.growing) ∧
      ∀ upper base, s.growing = upper ++ base → (t.readsBelow base.length = true ↔
        s.readsBelow base.length = true ∨ ∃ entry ∈ reads, entry ∈ base) := by
  have fits : c.Fits ⟨c.text, false, false⟩ := ⟨rfl, boundary, fun plain => nomatch plain⟩
  rw [Session.tracked_eq] at ran
  obtain ⟨⟨o', u⟩, evaluated, same⟩ := bind_eq_ok.1 ran
  cases same
  obtain ⟨reads, noticed, noted, inside⟩ := tracks.gives fits ⟨sound, growing ▸ reachable.layered⟩ evaluated
  have below (base : List (Key × Growth)) (lower : base <:+ s.growing) :
      u.readsBelow base.length = true ↔ ∃ entry ∈ reads, entry ∈ base := by
    rw [noted, show s.untracked.readsBelow base.length = false from rfl, Bool.false_or, List.any_eq_true]
    refine exists_congr fun entry => and_congr_right fun member => ?_
    rw [decide_eq_true_iff]
    exact inside entry member base lower
  refine ⟨reads, fun alarm stop => ?_, below s.growing List.suffix_rfl, fun upper base split => ?_⟩
  · rw [Session.tracked_eq]
    exact noticed.map (fun r => (r.1, r.2.readsBelow s.growing.length, s.resume r.2)) alarm stop
  · rw [Session.readsBelow_resume, Bool.or_eq_true, below base ⟨upper, split.symm⟩]

theorem tracked_exact_two_seeds :
    let g : Grammar := { rules := [
      ⟨.leftRecursive, "outer", .orElse (.rule 1) (.prim .digit)⟩,
      ⟨.memo, "item", .rule 2⟩,
      ⟨.leftRecursive, "inner", .choice [.pair (.rule 2) (.prim .digit), .rule 0, .prim .digit]⟩] }
    let c : Cursor := ⟨['é', '1', '2'], 2, none⟩
    let s := ((Session.fresh {} {}).untracked.begin ⟨.rule 0, 2⟩ (Runner.firstSeed "outer" c ['1', '2'])).counted
    ∃ o t, s.tracked (g.run 9 (.rule 1) c) = .ok (o, true, t) ∧ ∃ reads : List (Key × Growth),
      (∀ alarm stop, s.tracked (seedWatch.run g alarm stop 9 (.rule 1) c) =
        if reads.any alarm then .error stop else .ok (o, true, t)) ∧
      ∃ entry ∈ reads, entry ∈ s.growing := by
  intro g c s
  have found : g.rules[0]? = some _ := rfl
  have fits : c.Fits ⟨c.text, false, false⟩ := Cursor.fits_of_remaining rfl
  have reachable : g.Reachable ⟨c.text, false, false⟩ s := .seeded (.fresh {} {}) found rfl fits rfl rfl rfl
  have reads : (s.tracked (g.run 9 (.rule 1) c)).toOption.map (·.2.1) = some true := by decide +kernel
  cases ran : s.tracked (g.run 9 (.rule 1) c) with
  | error halt => simp [ran, Except.toOption] at reads
  | ok r =>
      obtain ⟨o, provisional, t⟩ := r
      simp only [ran, Except.toOption, Option.map_some, Option.some.injEq] at reads
      subst reads
      obtain ⟨entries, noticed, flag, -⟩ := tracked_exact g c s s 9 _ _ o true t (by decide) reachable rfl
        reachable.sound (.run (.rule 1)) ran
      exact ⟨o, t, rfl, entries, noticed, flag.1 rfl⟩

end Grammar
end ParseEngine
