import ParseEngine.Proofs.Progress

namespace ParseEngine
namespace Session

theorem resume_untracked (s : Session) : s.resume s.untracked = s := by
  simp only [resume, untracked, shallower_none_right]

theorem resume_resume (s t u : Session) : (s.resume t).resume u = s.resume (t.resume u) := by
  simp only [resume, shallower_assoc]

theorem resume_remember (s t : Session) (key : Key) (entry : Entry) :
    ((s.resume t).remember key entry) = ((t.remember key entry).1, s.resume (t.remember key entry).2) := by
  unfold remember
  change (if t.remembers key then _ else _) = _
  split <;> rfl

/-- The evaluation from the session is the one that starts with no reads noted, with the reads added afterwards. -/
def Resumes {α : Type} (evaluate : Session → Except Halt (α × Session)) (s : Session) : Prop :=
  evaluate s = evaluate s.untracked >>= fun r => .ok (r.1, s.resume r.2)

theorem Resumes.const {α : Type} {x : Except Halt α} {s : Session} :
    s.Resumes fun s => x >>= fun a => .ok (a, s) := by
  unfold Resumes
  cases x with
  | error halt => rfl
  | ok a => simp only [ok_bind, resume_untracked]

end Session

variable {g : Grammar} {st : Setting} {c : Cursor} {s : Session}

theorem Routine.Orderly.resumes {D : Discipline} {α : Type} {P : α → Prop} {R : Routine α} (orderly : Orderly D P R)
    {fuel : Nat} (free : ∀ e, D.parts e → D.setting.closed → g.InterceptFree e)
    (parts : ∀ e c (s : Session), D.parts e → D.Allows c → s.Sound g D.setting → s.Resumes (g.run fuel e c))
    (sound : s.Sound g D.setting) : s.Resumes (R (g.run fuel)) := by
  induction orderly generalizing s with
  | done result =>
      unfold Session.Resumes
      simp only [ok_bind, s.resume_untracked]
  | exhausted lossy => rfl
  | note f _ ih => exact ih ((Session.Alike.annotate s f).sound sound)
  | @ask e c next part here rest ih =>
      have untracked : s.untracked.Sound g D.setting := sound.congr rfl rfl
      have part := parts e c s part here sound
      have safely := Grammar.run_advances fuel e (free e ‹_›) here.fits untracked
      unfold Session.Resumes at part ⊢
      simp only [part, bind_assoc, ok_bind]
      rcases safely with spent | ⟨⟨o, t⟩, ran, advances⟩
      · simp only [spent, error_bind]
      · simp only [ran, ok_bind]
        have resumed : (s.resume t).Sound g D.setting := advances.sound.congr rfl rfl
        have whole := ih o advances.follows resumed
        have rest := ih o advances.follows advances.sound
        unfold Session.Resumes at whole rest
        rw [whole, rest, bind_assoc]
        change next o (g.run fuel) t.untracked >>= _ = _
        simp only [ok_bind, Session.resume_resume]

namespace Runner
variable {id : ParserId} {p : Runner}

theorem memo_resumes : s.Resumes (memo id p c) := by
  unfold Session.Resumes
  cases known : (s.memo.lookup ⟨id, c.index⟩).bind (·.outcome? c.context.isSome) with
  | some o =>
      have known' : (s.untracked.memo.lookup ⟨id, c.index⟩).bind (·.outcome? c.context.isSome) = some o := known
      simp only [memo, Session.consult, known, known', ok_bind]
      rw [← Session.resume_untracked (Session.log _ _)]
      rfl
  | none =>
      have known' : (s.untracked.memo.lookup ⟨id, c.index⟩).bind (·.outcome? c.context.isSome) = none := known
      simp only [memo, Session.consult, known, known', Session.tracked_eq, bind_assoc, ok_bind]
      refine congrArg (p c s.missed >>= ·) (funext fun r => ?_)
      obtain ⟨o, t⟩ := r
      have height : s.untracked.growing.length = s.growing.length := rfl
      simp only [height]
      by_cases provisional : t.readsBelow s.growing.length = true
      · simp only [if_pos provisional]
        rfl
      · simp only [if_neg provisional, Session.resume_remember]
        cases known : t.remember ⟨id, c.index⟩ (.outcome o) with
        | mk stored u => cases stored <;> rfl

theorem leftRecursive_resumes {title : String} : s.Resumes (leftRecursive id title p c) := by
  cases inFlight : s.growing.lookup ⟨id, c.index⟩ with
  | some growth =>
      have inFlight' : s.untracked.growing.lookup ⟨id, c.index⟩ = some growth := inFlight
      rw [Session.Resumes, leftRecursive_seed title p inFlight, leftRecursive_seed title p inFlight']
      rfl
  | none =>
      have inFlight' : s.untracked.growing.lookup ⟨id, c.index⟩ = none := inFlight
      have same : s.untracked.remembers ⟨id, c.index⟩ = s.remembers ⟨id, c.index⟩ := rfl
      -- a seed is grown, whether or not an entry was looked up in vain before
      have grows (asked asked' : Session) (alike : asked.untracked = asked'.untracked)
          (read : asked.shallowestRead = s.shallowestRead) (read' : asked'.shallowestRead = none) :
          (asked.tracked (growSeed id title p c) >>= fun r => if r.2.1 = true then .ok (r.1, r.2.2)
            else .ok (r.1, (r.2.2.remember ⟨id, c.index⟩ (.outcome r.1)).2)) =
          (asked'.tracked (growSeed id title p c) >>= fun r => if r.2.1 = true then .ok (r.1, r.2.2)
            else .ok (r.1, (r.2.2.remember ⟨id, c.index⟩ (.outcome r.1)).2)) >>= fun r =>
            (.ok (r.1, s.resume r.2) : Except Halt (Outcome × Session)) := by
        have height : asked.growing.length = asked'.growing.length := congrArg (·.growing.length) alike
        have resume (t : Session) : asked.resume t = s.resume t := by rw [Session.resume, read]; rfl
        have resume' (t : Session) : asked'.resume t = t := by rw [Session.resume, read']; rfl
        simp only [Session.tracked_eq, bind_assoc, ok_bind, alike, height, resume, resume']
        refine congrArg (growSeed id title p c asked'.untracked >>= ·) (funext fun r => ?_)
        by_cases provisional : r.2.readsBelow asked'.growing.length = true
        · simp only [if_pos provisional]
          rfl
        · simp only [if_neg provisional, Session.resume_remember]
          rfl
      unfold Session.Resumes
      simp only [leftRecursive, Session.seed?, inFlight, inFlight', same]
      cases remembered : s.remembers ⟨id, c.index⟩ with
      | false => exact grows s s.untracked rfl rfl rfl
      | true =>
          cases known : (s.memo.lookup ⟨id, c.index⟩).bind (·.outcome? c.context.isSome) with
          | some o =>
              have known' : (s.untracked.memo.lookup ⟨id, c.index⟩).bind (·.outcome? c.context.isSome) = some o :=
                known
              simp only [if_true, Session.consult, known, known', ok_bind]
              rw [← Session.resume_untracked { s with memoHits := s.memoHits + 1 }]
              rfl
          | none =>
              have known' : (s.untracked.memo.lookup ⟨id, c.index⟩).bind (·.outcome? c.context.isSome) = none :=
                known
              simp only [if_true, Session.consult, known, known']
              exact grows { s with memoMisses := s.memoMisses + 1 }
                { s.untracked with memoMisses := s.memoMisses + 1 } rfl rfl rfl

end Runner

namespace Grammar

theorem run_resumes {fuel : Nat} {e : Expr} (free : g.InterceptFree e) (fits : c.Fits st) (sound : s.Sound g st) :
    s.Resumes (g.run fuel e c) := by
  induction fuel, e, free using InterceptFree.induct generalizing c s with
  | zero e free => rfl
  | composite fuel e free composite ih =>
      have orderly := e.routine_disciplined composite fits (Expr.description g.rules) fuel
      rw [g.run_composite composite]
      exact orderly.resumes (fun p part _ => free.part part)
        (fun p d s part here sound => ih p part here.fits sound) sound
  | missing fuel r free found =>
      rw [run_missing fuel found]
      exact .const
  | plain fuel r rule free found mode ih =>
      rw [run_plain found fuel mode]
      exact ih fits sound
  | memo fuel r rule free found mode =>
      rw [run_memo found fuel mode]
      exact Runner.memo_resumes
  | leftRecursive fuel r rule free found mode =>
      rw [run_leftRecursive found fuel mode]
      exact Runner.leftRecursive_resumes

theorem tracked_run {fuel : Nat} {e : Expr} {o : Outcome} {t : Session} (free : g.InterceptFree e) (fits : c.Fits st)
    (sound : s.Sound g st) (ran : g.run fuel e c s = .ok (o, t)) :
    ∃ u, g.run fuel e c s.untracked = .ok (o, u) ∧ t = s.resume u ∧
      s.tracked (g.run fuel e c) = .ok (o, u.readsBelow s.growing.length, t) := by
  have resumes : s.Resumes (g.run fuel e c) := run_resumes free fits sound
  rw [Session.Resumes, ran] at resumes
  obtain ⟨⟨o', u⟩, ran', result⟩ := bind_eq_ok.1 resumes.symm
  cases result
  exact ⟨u, ran', rfl, by rw [Session.tracked_eq, ran', ok_bind]⟩

end Grammar
end ParseEngine
