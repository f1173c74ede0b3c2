import ParseEngine.Pattern.Program

/-!
Running a program over a text. All threads advance together, in order of preference, and at one place only
the most preferred thread at an instruction goes on. The match found is the leftmost one, and of those the
one that the pattern prefers.
-/

namespace ParseEngine.Pattern

structure Thread where
  instruction : Nat
  start : Nat
  deriving DecidableEq, Repr

structure Span where
  start : Nat
  stop : Nat
  deriving DecidableEq, Repr

namespace Program

/-- The threads that wait for a character or accept, reached from the threads on the stack without reading
one. Every instruction is entered at most once, so that `fuel` need not exceed twice their number plus the
stack. -/
def settle (program : Program) (before after : Option Char) :
    Nat → List Thread → List Nat → List Thread → List Thread
  | 0, _, _, settled => settled.reverse
  | _, [], _, settled => settled.reverse
  | fuel + 1, thread :: stack, seen, settled =>
      if thread.instruction ∈ seen then settle program before after fuel stack seen settled
      else
        let seen := thread.instruction :: seen
        match program.code[thread.instruction]? with
        | none => settle program before after fuel stack seen settled
        | some (.fork first second) =>
            settle program before after fuel
              ({ thread with instruction := first } :: { thread with instruction := second } :: stack) seen settled
        | some (.look condition next) =>
            if condition.holds before after then
              settle program before after fuel ({ thread with instruction := next } :: stack) seen settled
            else settle program before after fuel stack seen settled
        | some (.one _ _) | some .accept => settle program before after fuel stack seen (thread :: settled)

def untilAccept (program : Program) (place : Nat) : List Thread → List Thread × Option Span
  | [] => ([], none)
  | thread :: rest =>
      match program.code[thread.instruction]? with
      | some .accept => ([], some ⟨thread.start, place⟩)
      | _ =>
          let (kept, span) := untilAccept program place rest
          (thread :: kept, span)

def step? (program : Program) (c : Char) (thread : Thread) : Option Thread :=
  match program.code[thread.instruction]? with
  | some (.one set next) => if set c then some { thread with instruction := next } else none
  | _ => none

/-- The threads that go on at a place, and the best match so far. As long as there is none, a new thread
starts at every place, less preferred than all others. -/
def visit (program : Program) (before after : Option Char) (place : Nat) (threads : List Thread)
    (found : Option Span) : List Thread × Option Span :=
  let started := if found.isNone then threads ++ [⟨program.entry, place⟩] else threads
  let fuel := 2 * program.code.size + started.length
  let (kept, accepted) := program.untilAccept place (program.settle before after fuel started [] [])
  (kept, accepted <|> found)

def scan (program : Program) (before : Option Char) (place : Nat) (threads : List Thread)
    (found : Option Span) : List Char → Option Span
  | [] => (program.visit before none place threads found).2
  | c :: rest =>
      let (kept, found) := program.visit before (some c) place threads found
      let next := kept.filterMap (program.step? c)
      -- once there is a match no new thread starts, so without threads it is final
      if next.isEmpty && found.isSome then found
      else scan program (some c) (place + 1) next found rest

def find? (program : Program) (text : List Char) : Option Span :=
  program.scan none 0 [] none text

def slices? (program : Program) (text : List Char) : Option (List Char × List Char) :=
  (program.find? text).map fun span => (text.take span.start, (text.take span.stop).drop span.start)

theorem slices?_leads (program : Program) {text skipped matched : List Char}
    (found : program.slices? text = some (skipped, matched)) : skipped ++ matched <+: text := by
  obtain ⟨span, -, eq⟩ := Option.map_eq_some_iff.1 found
  obtain ⟨rfl, rfl⟩ := Prod.mk.inj eq
  rcases Nat.le_total span.start span.stop with le | le
  · have split := List.take_append_drop span.start (text.take span.stop)
    rw [List.take_take, Nat.min_eq_left le] at split
    rw [split]
    exact List.take_prefix _ _
  · have empty : (text.take span.stop).drop span.start = [] :=
      List.drop_eq_nil_of_le (Nat.le_trans (List.length_take_le _ _) le)
    rw [empty, List.append_nil]
    exact List.take_prefix _ _

end Program
end ParseEngine.Pattern
