import ParseEngine.Runner.Basic

namespace ParseEngine

namespace Failure

def reach (failures : List Failure) : Nat :=
  (failures.map (·.cursor.index)).foldl max 0

def expectedMark : String := "Expected "

/-- Different messages joined by "or". If all say what was expected, that word is said once. -/
def joinMessages (messages : List String) : String :=
  if 1 < messages.length && messages.all (·.startsWith expectedMark) then
    expectedMark ++ " or ".intercalate (messages.map fun m => String.ofList (m.toList.drop expectedMark.length))
  else " or ".intercalate messages

def furthest? (failures : List Failure) : Option Failure :=
  let tied := failures.filter (·.cursor.index == reach failures)
  tied.head?.map fun first =>
    { first with message := joinMessages (tied.map (·.message)).eraseDups }

end Failure

namespace Runner

def choiceFrom : List Runner → (failed : List Failure) → Runner
  | [], failed => fun c s =>
      match Failure.furthest? failed.reverse with
      | some failure => .ok (failure.toOutcome, s)
      | none => failHere "No alternatives" c s
  | p :: rest, failed => fun c s => do
      match ← p c s with
      | (.success v d, s) => return (.success v d, s)
      | (.failure message d found, s) => choiceFrom rest (⟨message, d, found⟩ :: failed) c s

def choice (alternatives : List Runner) : Runner :=
  choiceFrom alternatives []

end Runner
end ParseEngine
