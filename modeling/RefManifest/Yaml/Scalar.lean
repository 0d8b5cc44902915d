import RefManifest.Yaml.Reserved

/-!
# RefManifest.Yaml.Scalar

A text as a YAML scalar. A text with a line feed asks for a literal block, one that would read as
something else for single quotes, any other for no quotes; whatever the text does not allow there
falls back to quotes that it does allow.
-/

namespace RefManifest
namespace Yaml

inductive Style where
  | plain
  | singleQuoted
  | doubleQuoted
  | literal
deriving Repr, DecidableEq

def isBreak (c : Char) : Bool :=
  c == '\n' || c == '\r' || c == '\x85' || c == '\u2028' || c == '\u2029'

def isSpace (c : Char) : Bool := c == ' '

/-- What separates words: the end of the text counts too. -/
def isSeparator : Option Char → Bool
  | none => true
  | some c => isSpace c || c == '\t' || isBreak c || c == '\x00'

def isPrintable (c : Char) : Bool :=
  let n := c.toNat
  n == 0x0A || (0x20 ≤ n && n ≤ 0x7E) || (0xA0 ≤ n && n ≤ 0xD7FF) ||
    (0xE000 ≤ n && n ≤ 0xFFFD && n != 0xFEFF) || 0x10000 ≤ n

/-- Characters that mean something at the start of a plain text. -/
def indicators : List Char :=
  ['#', ',', '[', ']', '\x7b', '\x7d', '&', '*', '!', '|', '>', '\'', '"', '%', '@', '\x60']

/-- Whether the text holds two neighbours of these kinds. -/
def hasPair (first second : Char → Bool) : List Char → Bool
  | a :: b :: rest => (first a && second b) || hasPair first second (b :: rest)
  | _ => false

def startsMarked : List Char → Bool
  | '-' :: '-' :: '-' :: _ => true
  | '.' :: '.' :: '.' :: _ => true
  | _ => false

def startsSpecially (s : List Char) : Bool :=
  startsMarked s ||
    match s with
    | [] => false
    | c :: rest =>
      indicators.contains c || ((c == '?' || c == ':' || c == '-') && isSeparator rest.head?)

/-- Whether a colon ends a word, or a mark of a comment starts one, after the first character. -/
def hasInnerMark : List Char → Bool
  | a :: b :: rest =>
    (b == ':' && isSeparator rest.head?) || (b == '#' && isSeparator (some a)) ||
      hasInnerMark (b :: rest)
  | _ => false

/-- Characters, or a space before a break, that only double quotes can hold. -/
def needsEscapes (s : List Char) : Bool :=
  s.any (fun c => !isPrintable c) || hasPair isSpace isBreak s

def endsBlank (c : Option Char) : Bool :=
  match c with
  | some c => isSpace c || isBreak c
  | none => false

def allowsPlain (s : List Char) : Bool :=
  !(startsSpecially s || hasInnerMark s || needsEscapes s || s.any isBreak ||
    endsBlank s.head? || endsBlank s.getLast?)

def allowsSingle (s : List Char) : Bool := !(needsEscapes s || hasPair isBreak isSpace s)

def allowsLiteral (s : List Char) : Bool :=
  !(needsEscapes s || s.getLast?.any isSpace)

/-- Single quotes where they are allowed, and double quotes otherwise. -/
def quotes (s : List Char) : Style := if allowsSingle s then .singleQuoted else .doubleQuoted

def style (s : List Char) : Style :=
  if '\n' ∈ s then if allowsLiteral s then .literal else .doubleQuoted
  else if isReserved s then quotes s
  else if allowsPlain s then .plain
  else quotes s

/-! ## Writing -/

def spaces (n : Nat) : List Char := List.replicate n ' '

def escapeHex (mark : Char) (width n : Nat) : List Char :=
  let digits := (Nat.toDigits 16 n).map Char.toUpper
  '\\' :: mark :: List.replicate (width - digits.length) '0' ++ digits

def escapeChar (c : Char) : List Char :=
  if c = '"' then ['\\', '"']
  else if c = '\\' then ['\\', '\\']
  else if c = '\x85' then ['\\', 'N']
  else if c = '\u2028' then ['\\', 'L']
  else if c = '\u2029' then ['\\', 'P']
  else if isPrintable c && !isBreak c then [c]
  else if c = '\x00' then ['\\', '0']
  else if c = '\x07' then ['\\', 'a']
  else if c = '\x08' then ['\\', 'b']
  else if c = '\t' then ['\\', 't']
  else if c = '\n' then ['\\', 'n']
  else if c = '\x0b' then ['\\', 'v']
  else if c = '\x0c' then ['\\', 'f']
  else if c = '\r' then ['\\', 'r']
  else if c = '\x1b' then ['\\', 'e']
  else if c.toNat ≤ 0xFF then escapeHex 'x' 2 c.toNat
  else if c.toNat ≤ 0xFFFF then escapeHex 'u' 4 c.toNat
  else escapeHex 'U' 8 c.toNat

def doubleQuoted (s : List Char) : List Char := '"' :: s.flatMap escapeChar ++ ['"']

/-- The inside of single quotes with the closing one. A line that follows a break is indented. -/
def singleBody (indent : Nat) (afterBreak : Bool) : List Char → List Char
  | [] => (if afterBreak then spaces indent else []) ++ ['\'']
  | c :: rest =>
    if isBreak c then c :: singleBody indent true rest
    else
      (if afterBreak then spaces indent else []) ++
        (if c = '\'' then ['\'', '\''] else [c]) ++ singleBody indent false rest

def singleQuoted (indent : Nat) (s : List Char) : List Char := '\'' :: singleBody indent false s

def literalBody (indent : Nat) (afterBreak : Bool) : List Char → List Char
  | [] => []
  | c :: rest =>
    if isBreak c then c :: literalBody indent true rest
    else (if afterBreak then spaces indent else []) ++ c :: literalBody indent false rest

/-- Tells the indentation if the text starts blank. -/
def indentHint (s : List Char) : List Char := if endsBlank s.head? then ['2'] else []

/-- Tells what becomes of the breaks at the end: `-` if there is none, `+` if all have to be
kept, nothing if there is one. -/
def chompHint (s : List Char) : List Char :=
  match s.reverse with
  | [] => ['-']
  | [c] => if isBreak c then ['+'] else ['-']
  | c :: d :: _ => if !isBreak c then ['-'] else if isBreak d then ['+'] else []

def literal (indent : Nat) (s : List Char) : List Char :=
  '|' :: indentHint s ++ chompHint s ++ '\n' :: literalBody indent true s

def scalar (indent : Nat) (s : List Char) : List Char :=
  match style s with
  | .plain => s
  | .singleQuoted => singleQuoted indent s
  | .doubleQuoted => doubleQuoted s
  | .literal => literal indent s

end Yaml
end RefManifest
