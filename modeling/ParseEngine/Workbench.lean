import ParseEngine.Engine
import ParseEngine.Grammar.Blueprint

namespace ParseEngine

inductive EntryShape where
  | plain
  | contextual
  | byte
  deriving DecidableEq, Repr

inductive Operation where
  | run (parser : String) (cursor : Cursor)
  | put (parser : String) (index : Nat) (entry : Entry)
  | consult (parser : String) (index : Nat) (shape : EntryShape)
  | remembers (parser : String) (index : Nat)
  | isGrowing
  | seed (parser : String) (index : Nat)
  | track (operations : List Operation)
  | options
  | inspect
  | unknown
  deriving Inhabited

inductive Finding where
  | outcome (o : Option Outcome)
  | byte (found : Option (UInt8 × Cursor))
  | flag (b : Bool)
  | tracked (findings : List (Finding × Stats)) (provisional : Bool)
  | options (options : Options)
  | text (s : String)
  | refused

structure Workbench where
  grammar : Grammar
  scope : Scope

namespace Workbench

mutual
def perform (bench : Workbench) : Operation → Session → Except Halt (Finding × Session)
  | .run parser cursor, s =>
      match bench.scope.lookup parser with
      | some p => do
          let (o, s) ← bench.grammar.runIn p.expr cursor s
          return (.outcome (some o), s)
      | none => return (.refused, s)
  | .put parser index entry, s =>
      let (wrote, s) := s.remember ⟨bench.grammar.identify parser, index⟩ entry
      return (.flag wrote, s)
  | .consult parser index shape, s =>
      let key : Key := ⟨bench.grammar.identify parser, index⟩
      match shape with
      | .byte =>
          let (found, s) := s.consult Entry.byte? key
          return (.byte found, s)
      | shape =>
          let (found, s) := s.consult (Entry.outcome? (shape == .contextual)) key
          return (.outcome found, s)
  | .remembers parser index, s => return (.flag (s.remembers ⟨bench.grammar.identify parser, index⟩), s)
  | .isGrowing, s => return (.flag s.isGrowing, s)
  | .seed parser index, s =>
      let (found, s) := s.seed? ⟨bench.grammar.identify parser, index⟩
      return (.outcome found, s)
  | .track operations, s => do
      let (findings, provisional, s) ← s.tracked (bench.performAll operations)
      return (.tracked findings provisional, s)
  | .options, s => return (.options s.options, s)
  | .inspect, s => return (.text s.inspect, s)
  | .unknown, s => return (.refused, s)

def performAll (bench : Workbench) :
    List Operation → Session → Except Halt (List (Finding × Stats) × Session)
  | [], s => return ([], s)
  | operation :: rest, s => do
      let (finding, s) ← bench.perform operation s
      let stats := s.stats
      let (findings, s) ← bench.performAll rest s
      return ((finding, stats) :: findings, s)
end

end Workbench
end ParseEngine
