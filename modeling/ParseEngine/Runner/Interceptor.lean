import ParseEngine.Runner.Basic

namespace ParseEngine

/-- Rules are mentioned by the names that parsers were given. Counters are numbered within the grammar. -/
inductive Interceptor where
  | trace (name : String)
  | track (name : String)
  | twice (name : String)
  | fresh
  | depth (counter max : Nat)
  | fuel (counter max : Nat)
  | rebuild
  | wrap
  | seed (rule name : String)
  | contains (rule name : String)
  | put (rule name : String) (value : Value) (asByte : Bool)

def Value.toByte : Value → UInt8
  | .int n => n.toInt8.toUInt8
  | _ => 0

namespace Runner

def traced (name : String) (p : Runner) : Runner := fun c s => do
  let (o, s) ← p c (s.trace (.enter name c.index s.isGrowing s.stats))
  return (o, s.trace (.exit name o s.stats))

def watched (name : String) (p : Runner) : Runner := fun c s => do
  let (o, provisional, s) ← s.tracked (p c)
  return (o, s.trace (.track name c.index provisional))

def twice (name : String) (p : Runner) : Runner := fun c s => do
  let (first, s) ← p c s
  let (second, s) ← p c s
  return (second, s.trace (.twice name c.index (first == second)))

def inFreshSession (p : Runner) : Runner := fun c s => do
  let (o, inner) ← p c (.fresh {} s.journal)
  return (o, { s with journal := inner.journal })

def depthLimited (counter max : Nat) (p : Runner) : Runner := fun c s => do
  let level := s.journal.counter counter + 1
  let s := { s with journal := s.journal.withCounter counter level }
  let (o, s) ← if max < level then failHere s!"resource limit: nesting deeper than {max}" c s else p c s
  return (o, { s with journal := s.journal.withCounter counter (s.journal.counter counter - 1) })

def runLimited (counter max : Nat) (p : Runner) : Runner := fun c s =>
  let runs := s.journal.counter counter + 1
  let s := { s with journal := s.journal.withCounter counter runs }
  if max < runs then failHere s!"resource limit: more than {max} runs" c s else p c s

def rebuilt (p : Runner) : Runner := fun c s => do
  match ← p c s with
  | (.success v d, s) => return (.success v d, s)
  | (.failure message d _, s) => failHere message d s

def seedNoted (id : ParserId) (name : String) (p : Runner) : Runner := fun c s =>
  let (got, s) := s.seed? ⟨id, c.index⟩
  p c (s.trace (.seed name c.index got))

def memoNoted (id : ParserId) (name : String) (p : Runner) : Runner := fun c s =>
  p c (s.trace (.contains name c.index (s.remembers ⟨id, c.index⟩)))

def planted (id : ParserId) (name : String) (v : Value) (asByte : Bool) (p : Runner) : Runner := fun c s =>
  let entry := if asByte then .byte v.toByte c else .outcome (.success v c)
  let (wrote, s) := s.remember ⟨id, c.index⟩ entry
  p c (s.trace (.put name c.index wrote))

def intercept (identify : String → ParserId) : Interceptor → Runner → Runner
  | .trace name, p => p.traced name
  | .track name, p => p.watched name
  | .twice name, p => p.twice name
  | .fresh, p => p.inFreshSession
  | .depth counter max, p => p.depthLimited counter max
  | .fuel counter max, p => p.runLimited counter max
  | .rebuild, p => p.rebuilt
  | .wrap, p => p.mapValue fun v => .list [v]
  | .seed rule name, p => p.seedNoted (identify rule) name
  | .contains rule name, p => p.memoNoted (identify rule) name
  | .put rule name v asByte, p => p.planted (identify rule) name v asByte

end Runner
end ParseEngine
