/-!
JSON documents as far as options need them: objects keep repeated keys, numbers that are not written as
integers have no value, and a string has none if its escapes do not make a text.
-/

namespace ParseEngine

inductive Json where
  | null
  | bool (b : Bool)
  | integer (n : Int)
  | fraction
  | string (s : Option String)
  | array (items : List Json)
  | object (fields : List (Option String × Json))
  deriving Inhabited

end ParseEngine
