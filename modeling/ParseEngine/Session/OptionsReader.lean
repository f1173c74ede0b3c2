import ParseEngine.Json.Reader
import ParseEngine.Session.Options

/-!
Options from a JSON document: an object whose other fields are ignored, or an array of the fields in order.
Fields that are missing have their defaults. All keys of the object must be texts.
-/

namespace ParseEngine.Options

def consumeAll? : Json → Option Bool
  | .bool b => some b
  | _ => none

def growthBound? : Json → Option (Option Nat)
  | .null => some none
  | .integer n => if 0 ≤ n && n.toNat < UInt64.size then some (some n.toNat) else none
  | _ => none

def field? {α : Type} (name : String) (read : Json → Option α) (missing : α)
    (fields : List (String × Json)) : Option α :=
  match fields.filter (·.1 == name) with
  | [] => some missing
  | [(_, document)] => read document
  | _ => none

def ofJson? : Json → Option Options
  | .object fields => do
      let fields ← fields.mapM fun (key, document) => key.map (·, document)
      let consumeAll ← field? "consume_all" consumeAll? true fields
      let growthBound ← field? "max_growth_passes" growthBound? none fields
      return { consumeAll, growthBound }
  | .array [] => some {}
  | .array [a] => do return { consumeAll := ← consumeAll? a }
  | .array [a, b] => do return { consumeAll := ← consumeAll? a, growthBound := ← growthBound? b }
  | _ => none

def read? (text : String) : Option Options :=
  (Json.read? text.toList).bind ofJson?

end ParseEngine.Options
