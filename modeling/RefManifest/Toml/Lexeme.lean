import RefManifest.Text.Hex

/-!
# RefManifest.Toml.Lexeme

The pieces of TOML text that hold no values inside: blanks, comments, ends of lines, strings and
keys. Each reader takes what it can from the front and leaves the rest, or refuses.
-/

namespace RefManifest
namespace Toml

open Text

def isWhite (c : Char) : Bool := c == ' ' || c == '\t'

def skipWhite (s : List Char) : List Char := s.dropWhile isWhite

/-- Characters that may stand in comments and, quotes and backslashes apart, in strings. -/
def isTextChar (c : Char) : Bool := c == '\t' || (' ' ≤ c && c ≤ '~') || '\x7f' < c

/-- The rest after one end of a line, if one comes. -/
def dropNewline? : List Char → Option (List Char)
  | '\n' :: rest => some rest
  | '\r' :: '\n' :: rest => some rest
  | _ => none

def dropComment : List Char → List Char
  | '#' :: rest => rest.dropWhile isTextChar
  | s => s

/-- The rest after blanks, a comment and the end of the line or of the text. -/
def endOfLine? (s : List Char) : Option (List Char) :=
  match dropComment (skipWhite s) with
  | [] => some []
  | c :: rest => dropNewline? (c :: rest)

def skipSpace : Nat → List Char → List Char
  | 0, s => s
  | fuel + 1, s =>
    let rest := dropComment (skipWhite s)
    match dropNewline? rest with
    | some next => skipSpace fuel next
    | none => rest

/-- As `skipSpace`; each line takes a character, so the length bounds their number. -/
def skipLines (s : List Char) : List Char := skipSpace s.length s

def simpleEscape? (c : Char) : Option Char :=
  if c = '"' then some '"'
  else if c = '\\' then some '\\'
  else if c = 'b' then some '\x08'
  else if c = 't' then some '\t'
  else if c = 'n' then some '\n'
  else if c = 'f' then some '\x0c'
  else if c = 'r' then some '\r'
  else if c = 'e' then some '\x1b'
  else none

/-- The character that an escape after its backslash stands for, and the length of the escape. -/
def escape? (s : List Char) : Option (Char × Nat) :=
  match s with
  | [] => none
  | c :: rest =>
    let width := if c = 'x' then 2 else if c = 'u' then 4 else if c = 'U' then 8 else 0
    if width = 0 then (simpleEscape? c).map fun x => (x, 1)
    else if rest.length < width then none
    else (scalar? (rest.take width)).map fun x => (x, width + 1)

/-- Text up to the closing double quote on the same line. `skip` characters belong to an escape
that has been read. -/
def basicBody (skip : Nat) : List Char → Option (List Char × List Char)
  | [] => none
  | c :: rest =>
    match skip with
    | k + 1 => basicBody k rest
    | 0 =>
      if c = '"' then some ([], rest)
      else if c = '\\' then
        match escape? rest with
        | some (x, size) => (basicBody size rest).map fun r => (x :: r.1, r.2)
        | none => none
      else if isTextChar c then (basicBody 0 rest).map fun r => (c :: r.1, r.2)
      else none

/-- Text up to the closing single quote on the same line. -/
def literalBody : List Char → Option (List Char × List Char)
  | [] => none
  | c :: rest =>
    if c = '\'' then some ([], rest)
    else if isTextChar c then (literalBody rest).map fun r => (c :: r.1, r.2)
    else none

/-- What three quotes close: up to two more quotes still belong to the text. -/
def closing (quote : Char) : List Char → List Char × List Char
  | a :: b :: rest =>
    if a = quote then if b = quote then ([a, b], rest) else ([a], b :: rest)
    else ([], a :: b :: rest)
  | [a] => if a = quote then ([a], []) else ([], [a])
  | [] => ([], [])

def dropBlankLines : List Char → List Char
  | '\r' :: '\n' :: rest => dropBlankLines rest
  | c :: rest => if isWhite c || c == '\n' then dropBlankLines rest else c :: rest
  | [] => []

/-- The number of characters from a backslash at the end of a line to the next one that is no
blank, the backslash apart. -/
def lineEnding? (s : List Char) : Option Nat :=
  match dropNewline? (skipWhite s) with
  | none => none
  | some rest => some (s.length - (dropBlankLines rest).length)

def longBody (quote : Char) (escapes : Bool) (skip : Nat) :
    List Char → Option (List Char × List Char)
  | [] => none
  | c :: rest =>
    match skip with
    | k + 1 => longBody quote escapes k rest
    | 0 =>
      if c = quote ∧ rest.take 2 = [quote, quote] then some (closing quote (rest.drop 2))
      else if c = '\\' ∧ escapes = true then
        match escape? rest with
        | some (x, size) => (longBody quote escapes size rest).map fun r => (x :: r.1, r.2)
        | none =>
          match lineEnding? rest with
          | some size => longBody quote escapes size rest
          | none => none
      else if isTextChar c ∨ c = '\n' ∨ (c = '\r' ∧ rest.head? = some '\n') then
        (longBody quote escapes 0 rest).map fun r => (c :: r.1, r.2)
      else none

/-- An end of a line right after the opening quotes does not count. -/
def longString (quote : Char) (escapes : Bool) (s : List Char) :
    Option (List Char × List Char) :=
  longBody quote escapes 0 ((dropNewline? s).getD s)

/-- A string of one of the four kinds. -/
def string? : List Char → Option (List Char × List Char)
  | '"' :: '"' :: '"' :: rest => longString '"' true rest
  | '"' :: rest => basicBody 0 rest
  | '\'' :: '\'' :: '\'' :: rest => longString '\'' false rest
  | '\'' :: rest => literalBody rest
  | _ => none

def isDigit (c : Char) : Bool := '0' ≤ c && c ≤ '9'

def isBare (c : Char) : Bool :=
  isDigit c || ('a' ≤ c && c ≤ 'z') || ('A' ≤ c && c ≤ 'Z') || c == '_' || c == '-'

/-- A key without dots: bare, or a string that stays on its line. -/
def simpleKey? : List Char → Option (List Char × List Char)
  | '"' :: rest => basicBody 0 rest
  | '\'' :: rest => literalBody rest
  | s =>
    match s.takeWhile isBare with
    | [] => none
    | c :: name => some (c :: name, s.dropWhile isBare)

def maxNames : Nat := 80

/-- A key of at most so many names, with dots between them. -/
def names? : Nat → List Char → Option (List (List Char) × List Char)
  | 0, _ => none
  | count + 1, s =>
    match simpleKey? (skipWhite s) with
    | none => none
    | some (name, rest) =>
      match skipWhite rest with
      | '.' :: more => (names? count more).map fun r => (name :: r.1, r.2)
      | rest => some ([name], rest)

/-- A key as its names. Blanks may stand around each, ends of lines may not. -/
def key? (s : List Char) : Option (List (List Char) × List Char) := names? maxNames s

end Toml
end RefManifest
