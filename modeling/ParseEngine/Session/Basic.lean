import ParseEngine.Session.Journal
import ParseEngine.Session.Options

/-!
The session of a parse: the memo table, the left-recursive rules that are growing a seed, and the counters.

A rule that grows its seed is a frame of a stack. Reading the seed of a frame makes what was computed from it
provisional for every evaluation that began after the frame, and `tracked` tells whether that happened.
-/

namespace ParseEngine

structure Key where
  parser : ParserId
  index : Nat
  deriving DecidableEq, Repr

inductive Entry where
  | outcome (o : Outcome)
  | byte (n : UInt8) (cursor : Cursor)

def Entry.outcome? (contextual : Bool) : Entry → Option Outcome
  | .outcome o => if o.cursor.context.isSome = contextual then some o else none
  | .byte .. => none

def Entry.byte? : Entry → Option (UInt8 × Cursor)
  | .outcome _ => none
  | .byte n cursor => some (n, cursor)

/-- In the first pass the seed stands for "no answer yet"; from then on it is a success. -/
inductive Phase where
  | seeding
  | growing
  deriving DecidableEq, Repr

/-- A left-recursive rule in flight. The depth is the number of rules in flight when it began. -/
structure Growth where
  seed : Outcome
  phase : Phase
  depth : Nat

structure Session where
  options : Options := {}
  memo : List (Key × Entry) := []
  growing : List (Key × Growth) := []
  shallowestRead : Option Nat := none
  memoHits : Nat := 0
  memoMisses : Nat := 0
  passes : Nat := 0
  reentries : Nat := 0
  journal : Journal := {}

namespace Session

def fresh (options : Options) (journal : Journal) : Session :=
  { options, journal }

def stats (s : Session) : Stats :=
  { memoHits := s.memoHits
    memoMisses := s.memoMisses
    memoEntries := s.memo.length
    passes := s.passes
    reentries := s.reentries }

def log (s : Session) (event : LogEvent) : Session :=
  { s with journal := s.journal.logged event }

def trace (s : Session) (event : TraceEvent) : Session :=
  { s with journal := s.journal.traced event }

def remembers (s : Session) (key : Key) : Bool :=
  (s.memo.lookup key).isSome

def consult {α : Type} (s : Session) (read : Entry → Option α) (key : Key) : Option α × Session :=
  match (s.memo.lookup key).bind read with
  | some found => (some found, { s with memoHits := s.memoHits + 1 })
  | none => (none, { s with memoMisses := s.memoMisses + 1 })

def remember (s : Session) (key : Key) (entry : Entry) : Bool × Session :=
  if s.remembers key then (false, s) else (true, { s with memo := (key, entry) :: s.memo })

def isGrowing (s : Session) : Bool :=
  !s.growing.isEmpty

def shallower : Option Nat → Option Nat → Option Nat
  | some a, some b => some (min a b)
  | some a, none => some a
  | none, b => b

def seed? (s : Session) (key : Key) : Option Outcome × Session :=
  match s.growing.lookup key with
  | some growth =>
      -- whether a frame below some depth was read depends on the shallowest read alone
      (some growth.seed,
        { s with
          reentries := s.reentries + 1
          shallowestRead := shallower s.shallowestRead (some growth.depth) })
  | none => (none, s)

def begin (s : Session) (key : Key) (seed : Outcome) : Session :=
  { s with growing := (key, ⟨seed, .seeding, s.growing.length⟩) :: s.growing }

def grow (s : Session) (key : Key) (seed : Outcome) : Session :=
  { s with
    growing := s.growing.map fun (k, growth) =>
      if k = key then (k, { growth with seed, phase := .growing }) else (k, growth) }

def finish (s : Session) (key : Key) : Session :=
  { s with growing := s.growing.filter (·.1 ≠ key) }

/-- Runs an evaluation and tells whether it read the seed of a rule that was in flight when it started. The
read also counts for an evaluation around this one. -/
def tracked {α : Type} (s : Session) (evaluate : Session → Except Halt (α × Session)) :
    Except Halt (α × Bool × Session) := do
  let depth := s.growing.length
  let (result, after) ← evaluate { s with shallowestRead := none }
  let provisional := match after.shallowestRead with
    | some read => decide (read < depth)
    | none => false
  return (result, provisional, { after with shallowestRead := shallower s.shallowestRead after.shallowestRead })

def inspect (s : Session) : String :=
  "Session \x7b options: " ++ s.options.inspect ++
    s!", memo_entries: {s.memo.length}, active_left_recursions: {s.growing.length}, stats: " ++
    { s.stats with memoEntries := 0 }.inspect ++ " \x7d"

end Session
end ParseEngine
