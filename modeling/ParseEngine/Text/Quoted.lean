import ParseEngine.Text.Printable

namespace ParseEngine.Text

def escapeCodePoint (c : Char) : List Char :=
  '\\' :: 'u' :: '\x7b' :: Nat.toDigits 16 c.toNat ++ ['\x7d']

def escapeChar (mark c : Char) : List Char :=
  if c = '\x00' then ['\\', '0']
  else if c = '\t' then ['\\', 't']
  else if c = '\r' then ['\\', 'r']
  else if c = '\n' then ['\\', 'n']
  else if c = '\\' || c = mark then ['\\', c]
  else if isExtender c || !isPrintable c then escapeCodePoint c
  else [c]

def quoteWith (mark : Char) (text : List Char) : String :=
  String.ofList (mark :: text.flatMap (escapeChar mark) ++ [mark])

def quote (text : List Char) : String :=
  quoteWith '"' text

def quoteChar (c : Char) : String :=
  quoteWith '\x27' [c]

def quoteString (text : String) : String :=
  quote text.toList

end ParseEngine.Text
