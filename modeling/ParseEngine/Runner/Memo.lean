import ParseEngine.Runner.Basic

/-!
Memoization and left recursion.

A memoized parser runs once per index; its outcome is remembered unless it is provisional. A left-recursive
rule runs its body against a seed, at first a failure, and takes a pass that got further as the next seed,
until a pass does not get further.
-/

namespace ParseEngine.Runner

def memo (id : ParserId) (p : Runner) : Runner := fun c s =>
  let key : Key := ⟨id, c.index⟩
  match s.consult (·.outcome? c.context.isSome) key with
  | (some o, s) => .ok (o, s.log (.memoHit id c.index))
  | (none, s) => do
      let (o, provisional, s) ← s.tracked (p c)
      if provisional then return (o, s.log (.memoSkipped id c.index))
      match s.remember key (.outcome o) with
      | (true, s) => return (o, s.log (.memoStored id c.index))
      | (false, s) => return (o, s)

def improves : (pass seed : Outcome) → Bool
  | .success _ c, .success _ d => decide (d.index < c.index)
  | .success .., .failure .. => true
  | .failure .., _ => false

/-- Passes of the body, after `growth` passes that grew the seed. The first argument bounds the passes that
are still to come and is never used up, as `cap` stops the loop before. -/
def growFrom (id : ParserId) (cap : Nat) (body : Runner) : Nat → (growth : Nat) → Runner
  | 0, _ => exhausted
  | left + 1, growth => fun c s => do
      let key : Key := ⟨id, c.index⟩
      let (pass, s) ← body c { s with passes := s.passes + 1 }
      match s.growing.lookup key with
      | none => return (pass, s)
      | some ⟨seed, phase, _⟩ =>
          if !improves pass seed then
            return (if phase = .seeding then pass else seed, s)
          -- the pass that replaces the first failure does not count as growth
          let growth := if phase = .seeding then growth else growth + 1
          let s := s.log (.seedGrown id c.index pass.index)
          if cap ≤ growth then return (pass, s.log (.growthStopped id c.index growth))
          growFrom id cap body left growth c (s.grow key pass)

def growthCap (options : Options) (rest : List Char) : Nat :=
  options.growthBound.getD (Text.byteLength rest + 1)

def growSeed (id : ParserId) (title : String) (body : Runner) : Runner := fun c s => do
  let key : Key := ⟨id, c.index⟩
  let seed ← Outcome.failAt ("left recursion: no answer yet for " ++ title) c
  let cap := growthCap s.options (← c.remaining)
  let (o, s) ← growFrom id cap body (cap + 1) 0 c (s.begin key seed)
  return (o, s.finish key)

/-- Runs `body` as a left-recursive rule. In flight it answers with its seed; otherwise a remembered outcome
is used, or a seed is grown and remembered unless it is provisional. -/
def leftRecursive (id : ParserId) (title : String) (body : Runner) : Runner := fun c s =>
  let key : Key := ⟨id, c.index⟩
  match s.seed? key with
  | (some seed, s) => .ok (seed, s)
  | (none, s) =>
      -- a rule that is not remembered is not looked up, and no miss is counted
      let (known, s) := if s.remembers key then s.consult (·.outcome? c.context.isSome) key else (none, s)
      match known with
      | some o => .ok (o, s)
      | none => do
          let (o, provisional, s) ← s.tracked (growSeed id title body c)
          if provisional then return (o, s) else return (o, (s.remember key (.outcome o)).2)

end ParseEngine.Runner
