import ParseEngine.Pattern.Tree

/-!
Reading the written form of a pattern. A pattern that is not well formed has no tree. Classes by a property of Unicode,
such as `\p{L}` and `\pN`, are not read: they take tables of their own. Groups may be nested to any depth.
-/

namespace ParseEngine.Pattern

structure Switches where
  ignoreCase : Bool := false
  multiLine : Bool := false
  dotAll : Bool := false
  lazyFirst : Bool := false
  unicode : Bool := true
  carriageReturn : Bool := false
  ignoreBlanks : Bool := false

structure Reading where
  rest : List Char
  switches : Switches := {}
  names : List (List Char) := []

abbrev Reader := StateT Reading Option

namespace Reader

def reject {α : Type} : Reader α := fun _ => none

def peek : Reader (Option Char) := do
  return (← get).rest.head?

def skip (n : Nat) : Reader Unit :=
  modify fun reading => { reading with rest := reading.rest.drop n }

def next : Reader Char := do
  match ← peek with
  | some c => skip 1; return c
  | none => reject

def take? (text : List Char) : Reader Bool := do
  if text.isPrefixOf (← get).rest then
    skip text.length
    return true
  else return false

def expect (c : Char) : Reader Unit := do
  if (← next) == c then return () else reject

def span (set : CharSet) : Reader (List Char) := do
  let run := (← get).rest.takeWhile set
  skip run.length
  return run

def skipIgnored : Nat → Reader Unit
  | 0 => return ()
  | fuel + 1 => do
      if (← get).switches.ignoreBlanks then
        match ← peek with
        | some '#' =>
            let _ ← span (· != '\n')
            skipIgnored fuel
        | some c =>
            if Text.isBlank c then
              skip 1
              skipIgnored fuel
        | none => return ()

def skipBlanks : Reader Unit := do
  skipIgnored (2 * (← get).rest.length)

def charOf (code : Nat) : Reader Char :=
  if h : code.isValidChar then return Char.ofNatAux code h else reject

def hexDigits (digits : List Char) : Nat :=
  digits.foldl (fun n d => 16 * n + (if d.isDigit then d.toNat - 48 else d.toLower.toNat - 87)) 0

def isHexDigit : CharSet := fun c => c.isDigit || CharSet.range 'a' 'f' c || CharSet.range 'A' 'F' c

def hexEscape (count : Nat) : Reader Char := do
  if (← peek) == some '\x7b' then
    skip 1
    let digits ← span isHexDigit
    expect '\x7d'
    if digits.isEmpty then reject else charOf (hexDigits digits)
  else
    let digits := (← get).rest.take count
    if digits.length = count && digits.all isHexDigit then
      skip count
      charOf (hexDigits digits)
    else reject

def decimal : Reader Nat := do
  let _ ← span Text.isBlank
  let digits ← span Char.isDigit
  let _ ← span Text.isBlank
  if digits.isEmpty then reject
  let n := digits.foldl (fun n d => 10 * n + (d.toNat - 48)) 0
  if n < UInt32.size then return n else reject

inductive Escape where
  | literal (c : Char)
  | set (s : CharSet)
  | look (condition : Look)

def letterClass (switches : Switches) (letter : Char) : Reader CharSet := do
  let wide := switches.unicode
  let set : CharSet := match letter.toLower with
    | 'd' => if wide then CharSet.decimal else Char.isDigit
    | 's' => if wide then Text.isBlank else CharSet.asciiBlank
    | _ => if wide then CharSet.word else CharSet.asciiWord
  if letter.isUpper && !wide then reject else return set.negateIf letter.isUpper

def boundary (word : CharSet) : Reader Look := do
  let isKindChar : CharSet := fun c => c.isAlpha || c == '-'
  if (← peek) == some '\x7b' then
    match (← get).rest.drop 1 with
    | [] => reject
    | c :: _ =>
        if isKindChar c then
          skip 1
          let kind ← span isKindChar
          expect '\x7d'
          match String.ofList kind with
          | "start" => return .wordStart word
          | "end" => return .wordEnd word
          | "start-half" => return .halfStart word
          | "end-half" => return .halfEnd word
          | _ => reject
        else return .boundary word
  else return .boundary word

/-- An escape, after its backslash. Punctuation stands for itself. Two hexadecimal digits stand for a byte where
the pattern is not in terms of Unicode, and only an ASCII byte is a character. -/
def escape : Reader Escape := do
  let switches := (← get).switches
  let word : CharSet := if switches.unicode then CharSet.word else CharSet.asciiWord
  match ← next with
  | 'x' =>
      let braced := (← peek) == some '\x7b'
      let c ← hexEscape 2
      if !switches.unicode && !braced && c.toNat ≥ 128 then reject else return .literal c
  | 'u' => return .literal (← hexEscape 4)
  | 'U' => return .literal (← hexEscape 8)
  | 'a' => return .literal '\x07'
  | 'f' => return .literal '\x0c'
  | 't' => return .literal '\t'
  | 'n' => return .literal '\n'
  | 'r' => return .literal '\r'
  | 'v' => return .literal '\x0b'
  | 'A' => return .look .textStart
  | 'z' => return .look .textEnd
  | 'b' => return .look (← boundary word)
  | 'B' => return .look (.inside word)
  | '<' => return .look (.wordStart word)
  | '>' => return .look (.wordEnd word)
  | c =>
      if c ∈ ['d', 'D', 's', 'S', 'w', 'W'] then return .set (← letterClass switches c)
      else if c.isAlphanum || c.toNat ≥ 128 then reject
      else return .literal c

def classChar (c : Char) : Reader (Char ⊕ CharSet) := do
  if (← get).switches.unicode || c.toNat < 128 then return .inl c else reject

def classItem : Reader (Char ⊕ CharSet) := do
  match ← next with
  | '\\' =>
      match ← escape with
      | .literal c => classChar c
      | .set s => return .inr s
      | .look _ => reject
  | c => classChar c

/-- A member or a range of a bracketed class. A hyphen before a closing bracket or another hyphen makes no
range. -/
def classRange : Reader CharSet := do
  let first ← classItem
  skipBlanks
  match first, (← get).rest with
  | _, [] => reject
  | .inr s, '-' :: c :: _ => if c == ']' || c == '-' then return s else reject
  | .inr s, _ => return s
  | .inl low, '-' :: c :: _ =>
      if c == ']' || c == '-' then return .single low
      else
        skip 1
        skipBlanks
        match ← classItem with
        | .inl high => if low ≤ high then return .range low high else reject
        | .inr _ => reject
  | .inl c, _ => return .single c

def namedClass? (switches : Switches) : Reader (Option CharSet) := do
  match (← get).rest with
  | '[' :: ':' :: rest =>
      let negated := rest.head? == some '^'
      let body := if negated then rest.drop 1 else rest
      let name := body.takeWhile (· != ':')
      match body.drop name.length, CharSet.named? (String.ofList name) with
      | ':' :: ']' :: _, some set =>
          skip (2 + (if negated then 1 else 0) + name.length + 2)
          let set := if switches.ignoreCase then set.foldCase switches.unicode else set
          return some (set.negateIf negated)
      | _, _ => return none
  | _ => return none

def setOperation? : Reader (Option (CharSet → CharSet → CharSet)) := do
  if ← take? ['&', '&'] then return some CharSet.inter
  else if ← take? ['-', '-'] then return some CharSet.diff
  else if ← take? ['~', '~'] then return some CharSet.symmDiff
  else return none

def classOpening : Reader CharSet := do
  let hyphens ← span (· == '-')
  if hyphens.isEmpty then
    if ← take? [']'] then return .single ']' else return .none
  else return .single '-'

/-- The members of a bracketed class up to its closing bracket, after the opening one. Operations on sets
apply from left to right, and members that stand side by side are united first. Where the pattern is not in
terms of Unicode, a class holds all bytes above ASCII or none, and one that holds them matches no character. -/
def bracketed : Nat → Reader CharSet
  | 0 => reject
  | fuel + 1 => do
      let switches := (← get).switches
      let fold (s : CharSet) : CharSet := if switches.ignoreCase then s.foldCase switches.unicode else s
      skipBlanks
      let negated ← take? ['^']
      skipBlanks
      let opening ← classOpening
      let set ← members switches fold fuel id opening
      let set := (fold set).negateIf negated
      if !switches.unicode && set '\x80' then reject else return set
where
  /-- Members after those already united, which `pending` combines with the sets before them. -/
  members (switches : Switches) (fold : CharSet → CharSet) :
      Nat → (CharSet → CharSet) → CharSet → Reader CharSet
    | 0, _, _ => reject
    | fuel + 1, pending, united => do
        skipBlanks
        if ← take? [']'] then return pending united
        match ← setOperation? with
        | some operation =>
            let left := pending united
            members switches fold fuel (fun right => operation (fold left) (fold right)) .none
        | none =>
            match ← namedClass? switches with
            | some set => members switches fold fuel pending (united.union set)
            | none =>
                if ← take? ['['] then
                  let nested ← bracketed fuel
                  members switches fold fuel pending (united.union nested)
                else
                  let set ← classRange
                  members switches fold fuel pending (united.union set)

def setSwitch (switches : Switches) (letter : Char) (on : Bool) : Option Switches :=
  match letter with
  | 'i' => some { switches with ignoreCase := on }
  | 'm' => some { switches with multiLine := on }
  | 's' => some { switches with dotAll := on }
  | 'U' => some { switches with lazyFirst := on }
  | 'u' => some { switches with unicode := on }
  | 'R' => some { switches with carriageReturn := on }
  | 'x' => some { switches with ignoreBlanks := on }
  | _ => none

/-- Letters of switches; those after a hyphen are turned off. No letter and no hyphen may be repeated, and a
hyphen needs a letter after it. -/
def readSwitches : List Char → (seen : List Char) → (on : Bool) → Switches → Option Switches
  | [], seen, _, switches => if seen.head? == some '-' then none else some switches
  | c :: rest, seen, on, switches =>
      if c ∈ seen then none
      else if c == '-' then readSwitches rest (c :: seen) false switches
      else (setSwitch switches c on).bind (readSwitches rest (c :: seen) on)

def groupName : Reader Unit := do
  let name ← span (· != '>')
  expect '>'
  let first : CharSet := fun c => c == '_' || Text.isLetter c
  let later : CharSet := fun c => first c || Text.isNumeric c || c == '.' || c == '[' || c == ']'
  match name with
  | [] => reject
  | c :: rest =>
      if first c && rest.all later && name ∉ (← get).names then
        modify fun reading => { reading with names := name :: reading.names }
      else reject

inductive Opening where
  | group (switches : Switches)
  | switches (switches : Switches)

def opening : Reader Opening := do
  let current := (← get).switches
  skipBlanks
  if ← take? ['?'] then
    skipBlanks
    let named ← take? ['P', '<']
    let named ← if named then pure true else do
      match (← get).rest with
      | '<' :: c :: _ => if c == '=' || c == '!' then reject else take? ['<']
      | _ => pure false
    if named then
      groupName
      return .group current
    let letters ← span fun c => c != ':' && c != ')'
    match readSwitches letters [] true current with
    | none => reject
    | some switches =>
        if (← next) == ':' then return .group switches
        else if letters.isEmpty then reject
        else return .switches switches
  else return .group current

def literal (switches : Switches) (c : Char) : Tree :=
  .one (if switches.ignoreCase then (CharSet.single c).foldCase switches.unicode else .single c)

def dot (switches : Switches) : Reader Tree := do
  if !switches.unicode then reject
  if switches.dotAll then return .one .any
  else if switches.carriageReturn then return .one fun c => c != '\n' && c != '\r'
  else return .one fun c => c != '\n'

def lineStart (switches : Switches) : Look :=
  if !switches.multiLine then .textStart
  else if switches.carriageReturn then .breakStart
  else .lineStart

def lineEnd (switches : Switches) : Look :=
  if !switches.multiLine then .textEnd
  else if switches.carriageReturn then .breakEnd
  else .lineEnd

def bounds : Reader (Nat × Option Nat) := do
  let least ← decimal
  let range ← do
    if ← take? [','] then
      skipBlanks
      if (← peek) == some '\x7d' then pure (least, none) else pure (least, some (← decimal))
    else pure (least, some least)
  expect '\x7d'
  match range with
  | (_, some most) => if least ≤ most then return range else reject
  | _ => return range

def repetition? : Reader (Option (Nat × Option Nat)) := do
  match ← peek with
  | some '*' => skip 1; return some (0, none)
  | some '+' => skip 1; return some (1, none)
  | some '?' => skip 1; return some (0, some 1)
  | some '\x7b' => skip 1; return some (← bounds)
  | _ => return none

def repeated : Nat → Tree → Reader Tree
  | 0, _ => reject
  | fuel + 1, tree => do
      skipBlanks
      match ← repetition? with
      | none => return tree
      | some (least, most) =>
          skipBlanks
          let reluctant ← take? ['?']
          let greedy := reluctant == (← get).switches.lazyFirst
          repeated fuel (.times least most greedy tree)

mutual
def alternatives : Nat → Reader Tree
  | 0 => reject
  | fuel + 1 => do
      let first ← parts fuel
      if ← take? ['|'] then return .either first (← alternatives fuel) else return first

def parts : Nat → Reader Tree
  | 0 => reject
  | fuel + 1 => do
      skipBlanks
      match ← peek with
      | none | some '|' | some ')' => return .empty
      | some _ =>
          let first ← part fuel
          return .both first (← parts fuel)

def part : Nat → Reader Tree
  | 0 => reject
  | fuel + 1 => do
      let switches := (← get).switches
      match ← next with
      | '(' =>
          match ← opening with
          | .switches switches =>
              modify fun reading => { reading with switches }
              skipBlanks
              match ← repetition? with
              | none => return .empty
              | some _ => reject
          | .group inner =>
              modify fun reading => { reading with switches := inner }
              let body ← alternatives fuel
              expect ')'
              modify fun reading => { reading with switches }
              repeated fuel body
      | '[' =>
          let set ← bracketed fuel
          repeated fuel (.one set)
      | '\\' =>
          match ← escape with
          | .literal c => repeated fuel (literal switches c)
          | .set set => repeated fuel (.one set)
          | .look condition => repeated fuel (.look condition)
      | '.' => repeated fuel (← dot switches)
      | '^' => repeated fuel (.look (lineStart switches))
      | '$' => repeated fuel (.look (lineEnd switches))
      | c => if c ∈ ['*', '+', '?', '\x7b'] then reject else repeated fuel (literal switches c)
end

end Reader

def Tree.read? (source : List Char) : Option Tree :=
  let fuel := 4 * source.length + 8
  match Reader.alternatives fuel { rest := source } with
  | some (tree, reading) => if reading.rest.isEmpty then some tree else none
  | none => none

end ParseEngine.Pattern
