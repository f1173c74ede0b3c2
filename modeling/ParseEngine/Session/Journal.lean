import ParseEngine.Outcome

namespace ParseEngine

/-- The identity of a parser: a rule of the grammar, another parser of it, or a name that no parser has
taken. -/
inductive ParserId where
  | rule (r : Nat)
  | plain (n : Nat)
  | unclaimed (name : String)
  deriving DecidableEq, Repr

structure Stats where
  memoHits : Nat
  memoMisses : Nat
  memoEntries : Nat
  passes : Nat
  reentries : Nat
  deriving DecidableEq, Repr

def Stats.fields (stats : Stats) : List (String × Nat) :=
  [("memo_hits", stats.memoHits), ("memo_misses", stats.memoMisses), ("memo_entries", stats.memoEntries),
    ("left_recursion_passes", stats.passes), ("left_recursion_reentries", stats.reentries)]

def Stats.inspect (stats : Stats) : String :=
  "SessionStats \x7b " ++ ", ".intercalate (stats.fields.map fun (name, n) => s!"{name}: {n}") ++ " \x7d"

def Stats.render (stats : Stats) : String :=
  "\x7b\n" ++ ",\n".intercalate (stats.fields.map fun (name, n) => s!"  \"{name}\": {n}") ++ "\n\x7d"

inductive LogEvent where
  | memoHit (id : ParserId) (index : Nat)
  | memoSkipped (id : ParserId) (index : Nat)
  | memoStored (id : ParserId) (index : Nat)
  | seedGrown (id : ParserId) (index reached : Nat)
  | growthStopped (id : ParserId) (index passes : Nat)
  | parseFinished (id : ParserId) (stats : Stats)
  | stepFailed (step : Nat) (description : String) (index : Nat) (message : String)
  | stepsAborted (reason : String)

inductive LogLevel where
  | trace
  | debug
  | warn
  deriving DecidableEq, Repr

def LogLevel.name : LogLevel → String
  | .trace => "TRACE"
  | .debug => "DEBUG"
  | .warn => "WARN"

namespace LogEvent

def level : LogEvent → LogLevel
  | .memoHit .. | .memoSkipped .. | .memoStored .. | .parseFinished .. => .trace
  | .seedGrown .. | .stepFailed .. | .stepsAborted .. => .debug
  | .growthStopped .. => .warn

def subject? : LogEvent → Option ParserId
  | .memoHit id _ | .memoSkipped id _ | .memoStored id _ | .parseFinished id _ => some id
  | .seedGrown id _ _ | .growthStopped id _ _ => some id
  | .stepFailed .. | .stepsAborted _ => none

def message (number : ParserId → Nat) : LogEvent → String
  | .memoHit id index => s!"memo hit #{number id} at {index}"
  | .memoSkipped id index => s!"memo skipped #{number id} at {index}: depends on a growing seed"
  | .memoStored id index => s!"memo stored #{number id} at {index}"
  | .seedGrown id index reached => s!"left recursion #{number id} at {index}: seed grown to index {reached}"
  | .growthStopped id index passes =>
      s!"left recursion #{number id} at {index}: stopped after {passes} growth passes"
  | .parseFinished id stats => s!"parse by #{number id} finished: " ++ stats.inspect
  | .stepFailed step description index message =>
      s!"step {step} ({description}) failed at {index}: {message}"
  | .stepsAborted reason => s!"step sequence aborted by grammar error: {reason}"

end LogEvent

inductive TraceEvent where
  | enter (name : String) (index : Nat) (active : Bool) (stats : Stats)
  | exit (name : String) (outcome : Outcome) (stats : Stats)
  | track (name : String) (index : Nat) (provisional : Bool)
  | twice (name : String) (index : Nat) (same : Bool)
  | seed (name : String) (index : Nat) (got : Option Outcome)
  | contains (name : String) (index : Nat) (got : Bool)
  | put (name : String) (index : Nat) (wrote : Bool)
  | note (value : Value) (position steps : Nat)
  | caught (reason : String) (position steps : Nat)

/-- Events are kept newest first. -/
structure Journal where
  log : List LogEvent := []
  trace : List TraceEvent := []
  counters : List (Nat × Nat) := []

namespace Journal

def logged (journal : Journal) (event : LogEvent) : Journal :=
  { journal with log := event :: journal.log }

def traced (journal : Journal) (event : TraceEvent) : Journal :=
  { journal with trace := event :: journal.trace }

def counter (journal : Journal) (n : Nat) : Nat :=
  (journal.counters.lookup n).getD 0

def withCounter (journal : Journal) (n count : Nat) : Journal :=
  { journal with counters := (n, count) :: journal.counters.filter (·.1 != n) }

def subjects (journal : Journal) : List ParserId :=
  journal.log.reverse.filterMap LogEvent.subject? |>.eraseDups

def render (journal : Journal) : List (LogLevel × String) :=
  let number id := journal.subjects.idxOf id
  journal.log.reverse.map fun event => (event.level, event.message number)

end Journal
end ParseEngine
