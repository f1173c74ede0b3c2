import ParseEngine.Json.Basic

namespace ParseEngine.Json

abbrev Reader (α : Type) := List Char → Option (α × List Char)

def isSpace (c : Char) : Bool :=
  c == ' ' || c == '\t' || c == '\n' || c == '\r'

def skipSpace (text : List Char) : List Char :=
  text.dropWhile isSpace

def hexValue? (c : Char) : Option Nat :=
  if c.isDigit then some (c.toNat - 48)
  else if 'a' ≤ c && c ≤ 'f' then some (c.toNat - 87)
  else if 'A' ≤ c && c ≤ 'F' then some (c.toNat - 55)
  else none

def unit : Reader Nat
  | a :: b :: c :: d :: rest => do
      let a ← hexValue? a
      let b ← hexValue? b
      let c ← hexValue? c
      let d ← hexValue? d
      return (((a * 16 + b) * 16 + c) * 16 + d, rest)
  | _ => none

/-- A code point after its escape. Two surrogates make one; a lone one is no character. -/
def codePoint : Reader (Option Char) := fun text => do
  let (high, rest) ← unit text
  if 0xD800 ≤ high && high < 0xDC00 then
    match rest with
    | '\\' :: 'u' :: after =>
        let (low, after) ← unit after
        if 0xDC00 ≤ low && low < 0xE000 then
          return (some (Char.ofNat (0x10000 + (high - 0xD800) * 0x400 + (low - 0xDC00))), after)
        else return (none, rest)
    | _ => return (none, rest)
  else if 0xDC00 ≤ high && high < 0xE000 then return (none, rest)
  else return (some (Char.ofNat high), rest)

def escape : Reader (Option Char)
  | '"' :: rest => some (some '"', rest)
  | '\\' :: rest => some (some '\\', rest)
  | '/' :: rest => some (some '/', rest)
  | 'b' :: rest => some (some '\x08', rest)
  | 'f' :: rest => some (some '\x0c', rest)
  | 'n' :: rest => some (some '\n', rest)
  | 'r' :: rest => some (some '\r', rest)
  | 't' :: rest => some (some '\t', rest)
  | 'u' :: rest => codePoint rest
  | _ => none

def stringBody : Nat → List (Option Char) → Reader (List (Option Char))
  | 0, _, _ => none
  | fuel + 1, read, text =>
      match text with
      | '"' :: rest => some (read.reverse, rest)
      | '\\' :: rest => do
          let (c, rest) ← escape rest
          stringBody fuel (c :: read) rest
      | c :: rest => if c.toNat < 32 then none else stringBody fuel (some c :: read) rest
      | [] => none

def quoted : Reader (Option String) := fun text => do
  let (chars, rest) ← stringBody (text.length + 1) [] text
  return ((chars.mapM id).map String.ofList, rest)

def wholePart (text : List Char) : Option (List Char × List Char) :=
  let digits := text.takeWhile Char.isDigit
  match digits with
  | [] => none
  | '0' :: _ :: _ => none
  | _ => some (digits, text.drop digits.length)

def skipDigits (text : List Char) : Option (List Char) :=
  match text with
  | d :: rest => if d.isDigit then some (rest.dropWhile Char.isDigit) else none
  | [] => none

def skipFraction : List Char → Option (List Char)
  | '.' :: rest => skipDigits rest
  | text => some text

def skipExponent : List Char → Option (List Char)
  | e :: rest =>
      if e == 'e' || e == 'E' then
        match rest with
        | '+' :: rest => skipDigits rest
        | '-' :: rest => skipDigits rest
        | _ => skipDigits rest
      else some (e :: rest)
  | [] => some []

/-- A number. A fraction, an exponent or a minus sign before zero make it no integer. -/
def number (text : List Char) : Option (Json × List Char) := do
  let negative := text.head? == some '-'
  let (digits, rest) ← wholePart (if negative then text.drop 1 else text)
  let after ← skipFraction rest
  let after ← skipExponent after
  let n := digits.foldl (fun n d => 10 * n + (d.toNat - 48)) 0
  if after.length < rest.length || (negative && n == 0) then return (.fraction, after)
  else return (.integer (if negative then -Int.ofNat n else Int.ofNat n), after)

def word (rest : String) (value : Json) : Reader Json := fun text =>
  let rest := rest.toList
  if rest.isPrefixOf text then some (value, text.drop rest.length) else none

mutual
def value : Nat → Reader Json
  | 0, _ => none
  | fuel + 1, text =>
      match skipSpace text with
      | 'n' :: rest => word "ull" .null rest
      | 't' :: rest => word "rue" (.bool true) rest
      | 'f' :: rest => word "alse" (.bool false) rest
      | '"' :: rest => do
          let (text, rest) ← quoted rest
          return (.string text, rest)
      | '[' :: rest =>
          match skipSpace rest with
          | ']' :: rest => some (.array [], rest)
          | rest => do
              let (items, rest) ← elements fuel rest
              return (.array items, rest)
      | '\x7b' :: rest =>
          match skipSpace rest with
          | '\x7d' :: rest => some (.object [], rest)
          | rest => do
              let (fields, rest) ← members fuel rest
              return (.object fields, rest)
      | text => number text

def elements : Nat → Reader (List Json)
  | 0, _ => none
  | fuel + 1, text => do
      let (item, rest) ← value fuel text
      match skipSpace rest with
      | ',' :: rest => do
          let (items, rest) ← elements fuel rest
          return (item :: items, rest)
      | ']' :: rest => return ([item], rest)
      | _ => none

def members : Nat → Reader (List (Option String × Json))
  | 0, _ => none
  | fuel + 1, text => do
      match skipSpace text with
      | '"' :: rest =>
          let (key, rest) ← quoted rest
          match skipSpace rest with
          | ':' :: rest =>
              let (item, rest) ← value fuel rest
              match skipSpace rest with
              | ',' :: rest =>
                  let (fields, rest) ← members fuel rest
                  return ((key, item) :: fields, rest)
              | '\x7d' :: rest => return ([(key, item)], rest)
              | _ => none
          | _ => none
      | _ => none
end

def read? (text : List Char) : Option Json := do
  let (document, rest) ← value (text.length + 1) text
  if (skipSpace rest).isEmpty then return document else none

end ParseEngine.Json
