import RefManifest.Outline

/-!
# RefManifest.Json.Print

The printed form of JSON: two spaces for each level, one item or field on a line. In a text only
quotes, backslashes and controls are escaped.
-/

namespace RefManifest
namespace Json

def escapeChar (c : Char) : List Char :=
  if c = '"' then ['\\', '"']
  else if c = '\\' then ['\\', '\\']
  else if c = '\x08' then ['\\', 'b']
  else if c = '\t' then ['\\', 't']
  else if c = '\n' then ['\\', 'n']
  else if c = '\x0c' then ['\\', 'f']
  else if c = '\r' then ['\\', 'r']
  else if c.toNat < 0x20 then
    ['\\', 'u', '0', '0', Nat.digitChar (c.toNat / 16), Nat.digitChar (c.toNat % 16)]
  else [c]

def printText (s : List Char) : List Char := '"' :: s.flatMap escapeChar ++ ['"']

def newLine (level : Nat) : List Char := '\n' :: List.replicate (2 * level) ' '

/-- Brackets around printed members, which stand one level further in. -/
def enclose (opening closing : Char) (level : Nat) : List Char → List Char
  | [] => [opening, closing]
  | c :: cs => opening :: newLine (level + 1) ++ (c :: cs) ++ newLine level ++ [closing]

mutual

def printValue (level : Nat) : Outline → List Char
  | .text s => printText s
  | .records rs => enclose '[' ']' level (printRecords (level + 1) rs)

def printRecords (level : Nat) : List Outline.Fields → List Char
  | [] => []
  | [r] => enclose '\x7b' '\x7d' level (printFields (level + 1) r)
  | r :: r' :: rs =>
    enclose '\x7b' '\x7d' level (printFields (level + 1) r) ++ ',' :: newLine level ++
      printRecords level (r' :: rs)

def printFields (level : Nat) : Outline.Fields → List Char
  | [] => []
  | [f] => printField level f
  | f :: f' :: fs => printField level f ++ ',' :: newLine level ++ printFields level (f' :: fs)

def printField (level : Nat) : String × Outline → List Char
  | (name, x) => printText name.toList ++ ':' :: ' ' :: printValue level x

end

def print (fields : Outline.Fields) : List Char :=
  enclose '\x7b' '\x7d' 0 (printFields 1 fields)

end Json
end RefManifest
