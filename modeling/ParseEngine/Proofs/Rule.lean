import ParseEngine.Proofs.Session

namespace ParseEngine

/-- Sessions that differ in nothing but the counters of the memo table and the journal. -/
structure Session.Alike (s t : Session) : Prop where
  options : s.options = t.options
  memo : s.memo = t.memo
  growing : s.growing = t.growing
  read : s.shallowestRead = t.shallowestRead
  passes : s.passes = t.passes
  reentries : s.reentries = t.reentries

namespace Session.Alike
variable {s t u : Session}

theorem refl (s : Session) : s.Alike s :=
  ⟨rfl, rfl, rfl, rfl, rfl, rfl⟩

theorem trans (first : s.Alike t) (second : t.Alike u) : s.Alike u :=
  ⟨first.options.trans second.options, first.memo.trans second.memo, first.growing.trans second.growing,
    first.read.trans second.read, first.passes.trans second.passes, first.reentries.trans second.reentries⟩

theorem annotate (s : Session) (f : Journal → Journal) : (s.annotate f).Alike s :=
  ⟨rfl, rfl, rfl, rfl, rfl, rfl⟩

theorem sound {g : Grammar} {st : Setting} (alike : s.Alike t) (sound : t.Sound g st) : s.Sound g st :=
  sound.congr alike.memo alike.growing

theorem continues (alike : s.Alike t) : t.Continues s := by
  refine ⟨alike.options, alike.growing, fun key entry known => alike.memo ▸ known, fun depth read => ?_⟩
  rw [readsBelow_congr alike.read]
  exact read

end Session.Alike

def Session.missed (s : Session) : Session :=
  { s with memoMisses := s.memoMisses + 1, shallowestRead := none }

theorem Session.Alike.missed (s : Session) : s.missed.Alike s.untracked :=
  ⟨rfl, rfl, rfl, rfl, rfl, rfl⟩

def Session.asked (s : Session) (key : Key) : Session :=
  if s.remembers key then { s with memoMisses := s.memoMisses + 1 } else s

theorem Session.Alike.asked (s : Session) (key : Key) : (s.asked key).Alike s := by
  unfold Session.asked
  split <;> exact ⟨rfl, rfl, rfl, rfl, rfl, rfl⟩

def Session.reread (s : Session) (growth : Growth) : Session :=
  { s with
    reentries := s.reentries + 1
    shallowestRead := Session.shallower s.shallowestRead (some growth.depth) }

def Session.counted (s : Session) : Session :=
  { s with passes := s.passes + 1 }

theorem Session.readsBelow_reread (s : Session) (growth : Growth) (depth : Nat) :
    (s.reread growth).readsBelow depth = (s.readsBelow depth || decide (growth.depth < depth)) :=
  readsBelow_resume s { s with shallowestRead := some growth.depth } depth

theorem Session.reread_continues (s : Session) (growth : Growth) : s.Continues (s.reread growth) := by
  refine ⟨rfl, rfl, fun _ _ known => known, fun depth read => ?_⟩
  rw [readsBelow_reread, read, Bool.true_or]

theorem Session.counted_continues (s : Session) : s.Continues s.counted :=
  ⟨rfl, rfl, fun _ _ known => known, fun _ read => read⟩

/-- What holds while a rule grows a seed: the session is that before the growth, with the rule on top of the
rules in flight and perhaps more in the memo table. -/
structure Session.Above (s : Session) (key : Key) (t : Session) : Prop where
  options : t.options = s.options
  growing : ∃ growth, t.growing = (key, growth) :: s.growing
  memo : ∀ key entry, s.memo.lookup key = some entry → t.memo.lookup key = some entry

namespace Session.Above
variable {s start t u : Session} {key : Key}

theorem begin (alike : start.Alike s.untracked) (key : Key) (seed : Outcome) :
    s.Above key (start.begin key seed) := by
  refine ⟨alike.options, ⟨⟨seed, .seeding, s.growing.length⟩, ?_⟩, fun other entry known => ?_⟩
  · rw [Session.begin, alike.growing]
    rfl
  · rw [Session.begin, alike.memo]
    exact known

theorem continues (above : s.Above key t) (later : t.Continues u) : s.Above key u := by
  obtain ⟨growth, top⟩ := above.growing
  exact ⟨later.options.trans above.options, ⟨growth, later.growing.trans top⟩,
    fun other entry known => later.memo other entry (above.memo other entry known)⟩

theorem grow (above : s.Above key t) (idle : s.growing.lookup key = none) (seed : Outcome) :
    s.Above key (t.grow key seed) := by
  obtain ⟨growth, top⟩ := above.growing
  exact ⟨above.options, ⟨_, grow_growing top idle⟩, above.memo⟩

theorem finish (above : s.Above key t) (idle : s.growing.lookup key = none) :
    (t.finish key).growing = s.growing := by
  obtain ⟨growth, top⟩ := above.growing
  exact finish_growing top idle

theorem lookup (above : s.Above key t) : ∃ growth, t.growing.lookup key = some growth := by
  obtain ⟨growth, top⟩ := above.growing
  exact ⟨growth, by rw [top, List.lookup_cons_self]⟩

end Session.Above

def Growth.next (growth : Growth) (grown : Nat) : Nat :=
  if growth.phase = .seeding then grown else grown + 1

namespace Runner
variable {id : ParserId} {body : Runner} {c : Cursor} {s t : Session} {o pass : Outcome}
  {growth : Growth} {cap left grown : Nat}

theorem memo_hit (p : Runner)
    (hit : (s.memo.lookup ⟨id, c.index⟩).bind (·.outcome? c.context.isSome) = some o) :
    ∃ t : Session, t.Alike s ∧ memo id p c s = .ok (o, t) := by
  refine ⟨Session.log { s with memoHits := s.memoHits + 1 } (.memoHit id c.index),
    ⟨rfl, rfl, rfl, rfl, rfl, rfl⟩, ?_⟩
  rw [memo, Session.consult, hit]

theorem memo_miss (p : Runner)
    (miss : (s.memo.lookup ⟨id, c.index⟩).bind (·.outcome? c.context.isSome) = none) :
    ∃ note : Outcome → Session → Journal → Journal, memo id p c s = p c s.missed >>= fun r =>
      .ok (r.1, (s.kept r.2 ⟨id, c.index⟩ r.1).annotate (note r.1 r.2)) := by
  refine ⟨fun o t =>
    if t.readsBelow s.growing.length then (·.logged (.memoSkipped id c.index))
    else if (s.resume t).remembers ⟨id, c.index⟩ then fun journal => journal
    else (·.logged (.memoStored id c.index)), ?_⟩
  rw [memo, Session.consult, miss]
  simp only [Session.tracked_eq, bind_assoc]
  change p c s.missed >>= _ = _
  congr 1
  funext r
  obtain ⟨o, t⟩ := r
  simp only [ok_bind, Session.kept]
  by_cases provisional : t.readsBelow s.growing.length = true
  · simp only [if_pos provisional]
    rfl
  · have same : Session.resume { s with memoMisses := s.memoMisses + 1 } t = s.resume t := rfl
    simp only [if_neg provisional, same]
    by_cases known : (s.resume t).remembers ⟨id, c.index⟩ = true
    · simp only [Session.remember, if_pos known]
      rfl
    · simp only [Session.remember, if_neg known]
      rfl

theorem leftRecursive_seed (title : String) (body : Runner)
    (inFlight : s.growing.lookup ⟨id, c.index⟩ = some growth) :
    leftRecursive id title body c s = .ok (growth.seed, s.reread growth) := by
  rw [leftRecursive, Session.seed?, inFlight]
  rfl

theorem leftRecursive_hit (title : String) (body : Runner) (idle : s.growing.lookup ⟨id, c.index⟩ = none)
    (hit : (s.memo.lookup ⟨id, c.index⟩).bind (·.outcome? c.context.isSome) = some o) :
    ∃ t : Session, t.Alike s ∧ leftRecursive id title body c s = .ok (o, t) := by
  obtain ⟨entry, known, -⟩ := Option.bind_eq_some_iff.1 hit
  refine ⟨{ s with memoHits := s.memoHits + 1 }, ⟨rfl, rfl, rfl, rfl, rfl, rfl⟩, ?_⟩
  rw [leftRecursive, Session.seed?, idle]
  have remembered : s.remembers ⟨id, c.index⟩ = true := by rw [Session.remembers, known, Option.isSome_some]
  simp only [remembered, if_true, Session.consult, hit]

def firstSeed (title : String) (c : Cursor) (rest : List Char) : Outcome :=
  .failure ("left recursion: no answer yet for " ++ title) c (Cursor.previewOf rest)

theorem growSeed_eq {title : String} {rest : List Char} (remains : c.remaining = .ok rest) :
    growSeed id title body c s =
      growFrom id (growthCap s.options rest) body (growthCap s.options rest + 1) 0 c
        (s.begin ⟨id, c.index⟩ (firstSeed title c rest)) >>= fun r => .ok (r.1, r.2.finish ⟨id, c.index⟩) := by
  have seeded : Outcome.failAt ("left recursion: no answer yet for " ++ title) c = .ok (firstSeed title c rest) := by
    rw [Outcome.failAt, Cursor.preview, remains]
    rfl
  simp only [growSeed, seeded, remains, ok_bind]
  rfl

theorem leftRecursive_miss (title : String) (body : Runner) (idle : s.growing.lookup ⟨id, c.index⟩ = none)
    (miss : (s.memo.lookup ⟨id, c.index⟩).bind (·.outcome? c.context.isSome) = none) :
    leftRecursive id title body c s = growSeed id title body c (s.untracked.asked ⟨id, c.index⟩) >>= fun r =>
      .ok (r.1, s.kept r.2 ⟨id, c.index⟩ r.1) := by
  have looked : (if s.remembers ⟨id, c.index⟩ then s.consult (·.outcome? c.context.isSome) ⟨id, c.index⟩
      else (none, s)) = (none, s.asked ⟨id, c.index⟩) := by
    unfold Session.asked Session.consult
    rw [miss]
    split <;> rfl
  have untracked : (s.asked ⟨id, c.index⟩).untracked = s.untracked.asked ⟨id, c.index⟩ := by
    change _ = if s.remembers ⟨id, c.index⟩ then _ else _
    unfold Session.asked
    split <;> rfl
  have alike := Session.Alike.asked s ⟨id, c.index⟩
  rw [leftRecursive, Session.seed?, idle]
  simp only [looked, Session.tracked_eq, untracked, bind_assoc]
  congr 1
  funext r
  obtain ⟨o, t⟩ := r
  simp only [Session.kept, Session.resume, alike.growing, alike.read, ok_bind]
  split <;> rfl

theorem leftRecursive_grow (title : String) {rest : List Char} (remains : c.remaining = .ok rest)
    (idle : s.growing.lookup ⟨id, c.index⟩ = none)
    (miss : (s.memo.lookup ⟨id, c.index⟩).bind (·.outcome? c.context.isSome) = none) :
    ∃ start : Session, start.Alike s.untracked ∧ ∀ body, leftRecursive id title body c s =
      growFrom id (growthCap s.options rest) body (growthCap s.options rest + 1) 0 c
        (start.begin ⟨id, c.index⟩ (firstSeed title c rest)) >>= fun r =>
      .ok (r.1, s.kept (r.2.finish ⟨id, c.index⟩) ⟨id, c.index⟩ r.1) := by
  have alike := Session.Alike.asked s.untracked ⟨id, c.index⟩
  refine ⟨s.untracked.asked ⟨id, c.index⟩, alike, fun body => ?_⟩
  rw [leftRecursive_miss title body idle miss, growSeed_eq remains, alike.options, bind_assoc]
  rfl

inductive Turn where
  | ends (o : Outcome) (t : Session)
  | again (grown : Nat) (t : Session)

def Turn.follow (next : Nat → Session → Except Halt (Outcome × Session)) : Turn → Except Halt (Outcome × Session)
  | .ends o t => .ok (o, t)
  | .again grown t => next grown t

def turn (id : ParserId) (cap grown : Nat) (c : Cursor) (pass : Outcome) (t : Session) : Turn :=
  match t.growing.lookup ⟨id, c.index⟩ with
  | none => .ends pass t
  | some growth =>
      if !improves pass growth.seed then .ends (if growth.phase = .seeding then pass else growth.seed) t
      else
        let t := t.log (.seedGrown id c.index pass.index)
        if cap ≤ growth.next grown then .ends pass (t.log (.growthStopped id c.index (growth.next grown)))
        else .again (growth.next grown) (t.grow ⟨id, c.index⟩ pass)

theorem growFrom_succ : growFrom id cap body (left + 1) grown c s = body c s.counted >>= fun r =>
    (turn id cap grown c r.1 r.2).follow fun grown => growFrom id cap body left grown c := by
  simp only [growFrom]
  change body c s.counted >>= _ = _
  congr 1
  funext r
  obtain ⟨pass, t⟩ := r
  simp only [turn]
  cases t.growing.lookup ⟨id, c.index⟩ with
  | none => rfl
  | some growth =>
      dsimp only
      by_cases better : (!improves pass growth.seed) = true
      · simp only [if_pos better]
        rfl
      · simp only [if_neg better]
        rw [← Growth.next]
        by_cases reached : cap ≤ growth.next grown
        · simp only [if_pos reached]
          rfl
        · simp only [if_neg reached]
          rfl

section Turn
variable (top : t.growing.lookup ⟨id, c.index⟩ = some growth)
include top

theorem turn_stops (worse : improves pass growth.seed = false) (cap grown : Nat) :
    turn id cap grown c pass t = .ends (if growth.phase = .seeding then pass else growth.seed) t := by
  simp only [turn, top, worse, Bool.not_false, if_true]

theorem turn_capped (better : improves pass growth.seed = true) (reached : cap ≤ growth.next grown) :
    ∃ note, turn id cap grown c pass t = .ends pass (t.annotate note) := by
  refine ⟨fun journal => (journal.logged (.seedGrown id c.index pass.index)).logged
    (.growthStopped id c.index (growth.next grown)), ?_⟩
  simp only [turn, top, better, Bool.not_true, Bool.false_eq_true, if_false, if_pos reached]
  rfl

theorem turn_goesOn (better : improves pass growth.seed = true) (short : growth.next grown < cap) :
    ∃ note, turn id cap grown c pass t =
      .again (growth.next grown) ((t.annotate note).grow ⟨id, c.index⟩ pass) := by
  refine ⟨(·.logged (.seedGrown id c.index pass.index)), ?_⟩
  simp only [turn, top, better, Bool.not_true, Bool.false_eq_true, if_false, if_neg (Nat.not_le_of_lt short)]
  rfl

theorem turn_cases (cap grown : Nat) (pass : Outcome) :
    (improves pass growth.seed = false ∧
      turn id cap grown c pass t = .ends (if growth.phase = .seeding then pass else growth.seed) t) ∨
    (improves pass growth.seed = true ∧ cap ≤ growth.next grown ∧
      ∃ note, turn id cap grown c pass t = .ends pass (t.annotate note)) ∨
    (improves pass growth.seed = true ∧ growth.next grown < cap ∧
      ∃ note, turn id cap grown c pass t =
        .again (growth.next grown) ((t.annotate note).grow ⟨id, c.index⟩ pass)) := by
  cases better : improves pass growth.seed with
  | false => exact .inl ⟨rfl, turn_stops top better cap grown⟩
  | true =>
      by_cases reached : cap ≤ growth.next grown
      · exact .inr (.inl ⟨rfl, reached, turn_capped top better reached⟩)
      · have short := Nat.lt_of_not_le reached
        exact .inr (.inr ⟨rfl, short, turn_goesOn top better short⟩)

end Turn

/-- What an interceptor makes of a parser where it runs: all it can do is to note something before and after, refuse
the run, track it, run twice or in a session of its own, alter the outcome, read a seed, or plant an entry. -/
inductive Intercepts (identify : String → ParserId) (c : Cursor) (s : Session) :
    Interceptor → (Runner → Except Halt (Outcome × Session)) → Prop
  | noted {interceptor : Interceptor} (f : Journal → Journal) (after : Outcome → Session → Journal → Journal) :
      Intercepts identify c s interceptor fun p =>
        p c (s.annotate f) >>= fun r => .ok (r.1, r.2.annotate (after r.1 r.2))
  | refused {interceptor : Interceptor} (message : String) (f after : Journal → Journal) :
      Intercepts identify c s interceptor fun _ =>
        failHere message c (s.annotate f) >>= fun r => .ok (r.1, r.2.annotate after)
  | tracked {interceptor : Interceptor} (after : Outcome → Session → Journal → Journal) :
      Intercepts identify c s interceptor fun p =>
        p c s.untracked >>= fun r => .ok (r.1, (s.resume r.2).annotate (after r.1 r.2))
  | repeated {interceptor : Interceptor} (after : Outcome → Outcome → Journal → Journal) :
      Intercepts identify c s interceptor fun p =>
        p c s >>= fun r => p c r.2 >>= fun r' => .ok (r'.1, r'.2.annotate (after r.1 r'.1))
  | apart : Intercepts identify c s .fresh fun p =>
      p c (.fresh {} s.journal) >>= fun r => .ok (r.1, { s with journal := r.2.journal })
  | rebuilt {interceptor : Interceptor} : Intercepts identify c s interceptor fun p => p.rebuilt c s
  | mapped {interceptor : Interceptor} (f : Value → Value) :
      Intercepts identify c s interceptor fun p => p.mapValue f c s
  | read {name label : String} {growth : Growth} (inFlight : s.growing.lookup ⟨identify name, c.index⟩ = some growth)
      (f : Journal → Journal) :
      Intercepts identify c s (.seed name label) fun p => p c ((s.reread growth).annotate f)
  | planted {name label : String} {v : Value} {asByte : Bool} (f : Journal → Journal) :
      Intercepts identify c s (.put name label v asByte) fun p =>
        p c ((s.remember ⟨identify name, c.index⟩
          (if asByte then .byte v.toByte c else .outcome (.success v c))).2.annotate f)

theorem Intercepts.noted_only (identify : String → ParserId) (interceptor : Interceptor) (c : Cursor) (s : Session)
    (f : Journal → Journal) :
    ∃ how, Intercepts identify c s interceptor how ∧ ∀ p : Runner, p c (s.annotate f) = how p := by
  refine ⟨_, .noted f fun _ _ => id, fun p => ?_⟩
  cases p c (s.annotate f) <;> rfl

theorem intercept_eq (identify : String → ParserId) (interceptor : Interceptor) (c : Cursor) (s : Session) :
    ∃ how, Intercepts identify c s interceptor how ∧ ∀ p, intercept identify interceptor p c s = how p := by
  cases interceptor with
  | trace name =>
      exact ⟨_, .noted (·.traced (.enter name c.index s.isGrowing s.stats)) fun o t =>
        (·.traced (.exit name o t.stats)), fun p => rfl⟩
  | track name =>
      refine ⟨_, .tracked fun _ t => (·.traced (.track name c.index (t.readsBelow s.growing.length))), fun p => ?_⟩
      simp only [intercept, watched, Session.tracked_eq, bind_assoc]
      rfl
  | twice name => exact ⟨_, .repeated fun o o' => (·.traced (.twice name c.index (o == o'))), fun p => rfl⟩
  | fresh => exact ⟨_, .apart, fun p => rfl⟩
  | depth counter max =>
      let enter (journal : Journal) := journal.withCounter counter (journal.counter counter + 1)
      let leave (journal : Journal) := journal.withCounter counter (journal.counter counter - 1)
      simp only [intercept, depthLimited]
      split
      · exact ⟨_, .refused _ enter leave, fun p => rfl⟩
      · exact ⟨_, .noted enter fun _ _ => leave, fun p => rfl⟩
  | fuel counter max =>
      let enter (journal : Journal) := journal.withCounter counter (journal.counter counter + 1)
      simp only [intercept, runLimited]
      split
      · exact ⟨_, .refused s!"resource limit: more than {max} runs" enter id, fun p => (bind_pure _).symm⟩
      · exact Intercepts.noted_only identify _ c s enter
  | rebuild => exact ⟨_, .rebuilt, fun p => rfl⟩
  | wrap => exact ⟨_, .mapped _, fun p => rfl⟩
  | seed name label =>
      simp only [intercept, seedNoted, Session.seed?]
      cases inFlight : s.growing.lookup ⟨identify name, c.index⟩ with
      | none => exact Intercepts.noted_only identify _ c s (·.traced (.seed label c.index none))
      | some growth => exact ⟨_, .read inFlight (·.traced (.seed label c.index (some growth.seed))), fun p => rfl⟩
  | contains name label =>
      exact Intercepts.noted_only identify _ c s
        (·.traced (.contains label c.index (s.remembers ⟨identify name, c.index⟩)))
  | put name label v asByte =>
      exact ⟨_, .planted (·.traced (.put label c.index (s.remember ⟨identify name, c.index⟩ _).1)), fun p => rfl⟩

end Runner
end ParseEngine
