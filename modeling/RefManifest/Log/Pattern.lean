import RefManifest.Number.Decimal
import RefManifest.Text.Alphanumeric
import RefManifest.Text.Hex

/-!
# RefManifest.Log.Pattern

The texts that a log filter takes for a pattern of field values. Nothing is matched with them here:
a filter is refused as a whole if one of its patterns is not well formed, and no notice is inside
a span whose values could match. Patterns are those of regular expressions over Unicode; without
it (the flag `u` taken back) a pattern may mention ASCII only. The matcher behind them knows no
word boundaries in Unicode.
-/

namespace RefManifest
namespace Log
namespace Pattern

open Number Text

def isAscii (c : Char) : Bool := c.toNat < 0x80

inductive Escape where
  | char (c : Char)
  | chars
  | position
deriving Repr, DecidableEq

def Escape.isAllowed (unicode : Bool) : Escape → Bool
  | .char c => unicode || isAscii c
  | _ => true

/-- Whether it may stand in a class of characters. -/
def Escape.isItem (unicode : Bool) (e : Escape) : Bool := e.isAllowed unicode && e != .position

def controlOf? (c : Char) : Option Char :=
  if c = 'a' then some '\x07'
  else if c = 'f' then some '\x0c'
  else if c = 't' then some '\t'
  else if c = 'n' then some '\n'
  else if c = 'r' then some '\r'
  else if c = 'v' then some '\x0b'
  else none

/-- The character of so many digits at the front. -/
def numbered? (size : Nat) (s : List Char) : Option (Escape × List Char) :=
  if s.length < size then none
  else (scalar? (s.take size)).map fun c => (.char c, s.drop size)

/-- The major categories of characters have one letter each. -/
def isCategory (c : Char) : Bool := "clmnpsz".toList.contains c.toLower

def escape? (unicode : Bool) : List Char → Option (Escape × List Char)
  | [] => none
  | c :: rest =>
    let only (allowed : Bool) (e : Escape) := if allowed then some (e, rest) else none
    match controlOf? c with
    | some control => some (.char control, rest)
    | none =>
      if c = 'x' then numbered? 2 rest
      else if c = 'u' then numbered? 4 rest
      else if c = 'U' then numbered? 8 rest
      else if c = 'd' ∨ c = 's' ∨ c = 'w' then some (.chars, rest)
      else if c = 'D' ∨ c = 'S' ∨ c = 'W' then only unicode .chars
      else if c = 'A' ∨ c = 'z' then some (.position, rest)
      else if c = 'b' ∨ c = 'B' ∨ c = '<' ∨ c = '>' then only (!unicode) .position
      else if c = 'p' ∨ c = 'P' then
        match rest with
        | k :: rest => if unicode && isCategory k then some (.chars, rest) else none
        | [] => none
      else only (isAscii c && !c.isAlphanum) (.char c)

/-! ## Classes -/

def classNames : List (List Char) :=
  ["alnum", "alpha", "ascii", "blank", "cntrl", "digit", "graph", "lower", "print", "punct",
    "space", "upper", "word", "xdigit"].map String.toList

/-- The rest after a named class such as `[:alpha:]`, after its first bracket. -/
def dropNamed? : List Char → Option (List Char)
  | ':' :: s =>
    let s := match s with
      | '^' :: rest => rest
      | s => s
    let name := s.takeWhile fun c => c != ':'
    match s.drop name.length with
    | ':' :: ']' :: rest => if classNames.contains name then some rest else none
    | _ => none
  | _ => none

/-- The items of a class, after its first bracket: a negation is dropped, and so are hyphens or
else a closing bracket in the first place, which stand for themselves. -/
def classStart (s : List Char) : List Char :=
  let s := match s with
    | '^' :: rest => rest
    | s => s
  match s with
  | '-' :: rest => rest.dropWhile fun c => c == '-'
  | ']' :: rest => rest
  | s => s

def classItem? (unicode : Bool) : List Char → Option (Escape × List Char)
  | [] => none
  | '\\' :: rest => escape? unicode rest
  | c :: rest => some (.char c, rest)

/-- Two hyphens, ampersands or tildes between classes combine them. -/
def isOperator (a b : Char) : Bool := a == b && (a == '&' || a == '-' || a == '~')

/-- The rest after a range or a single item of a class. -/
def dropRange? (unicode : Bool) (s : List Char) : Option (List Char) :=
  match classItem? unicode s with
  | none => none
  | some (low, '-' :: c :: rest) =>
    if c = ']' ∨ c = '-' then
      if low.isItem unicode then some ('-' :: c :: rest) else none
    else
      match low, classItem? unicode (c :: rest) with
      | .char a, some (.char b, rest) =>
        if a ≤ b ∧ Escape.isItem unicode (.char b) then some rest else none
      | _, _ => none
  | some (item, rest) => if item.isItem unicode then some rest else none

/-- The rest after the closing bracket of a class inside of which `depth` more are open. -/
def dropClass? (unicode : Bool) : Nat → Nat → List Char → Option (List Char)
  | 0, _, _ => none
  | _ + 1, _, [] => none
  | fuel + 1, depth, c :: rest =>
    if c = ']' then
      match depth with
      | 0 => some rest
      | depth + 1 => dropClass? unicode fuel depth rest
    else if c = '[' then
      match dropNamed? rest with
      | some rest => dropClass? unicode fuel depth rest
      | none =>
        if rest.head? = some '^' ∧ unicode = false then none
        else dropClass? unicode fuel (depth + 1) (classStart rest)
    else if isOperator c (rest.headD ']') then dropClass? unicode fuel depth (rest.drop 1)
    else
      match dropRange? unicode (c :: rest) with
      | some rest => dropClass? unicode fuel depth rest
      | none => none

/-- What an opening parenthesis begins: a group with or without a name, or a setting that holds
for the rest of the group around it. -/
inductive Opening where
  | group (unicode : Bool) (name : Option (List Char))
  | setting (unicode : Bool)
deriving Repr, DecidableEq

def isNameStart (c : Char) : Bool := c == '_' || (isAlphanumeric c && !isDigit c)

def isNamePart (c : Char) : Bool :=
  c == '_' || c == '.' || c == '[' || c == ']' || isAlphanumeric c

def namedGroup? (unicode : Bool) (s : List Char) : Option (Opening × List Char) :=
  let name := s.takeWhile fun c => c != '>'
  match name, s.drop name.length with
  | c :: more, _ :: rest =>
    if isNameStart c && more.all isNamePart then some (.group unicode (some name), rest) else none
  | _, _ => none

def isFlag (c : Char) : Bool := "imsUuRx-".toList.contains c

/-- Flags come once each; those behind a hyphen are taken back, and one has to be there. -/
def areFlags (flags : List Char) : Bool :=
  flags.all isFlag && decide flags.Nodup && flags.getLast? != some '-'

def unicodeAfter (unicode : Bool) (flags : List Char) : Bool :=
  if (flags.takeWhile fun c => c != '-').contains 'u' then true
  else unicode && !flags.contains 'u'

/-- What begins at an opening parenthesis, and the rest after its head. -/
def opening? (unicode : Bool) : List Char → Option (Opening × List Char)
  | '?' :: 'P' :: '<' :: rest => namedGroup? unicode rest
  | '?' :: '<' :: rest => namedGroup? unicode rest
  | '?' :: rest =>
    let flags := rest.takeWhile fun c => c != ':' && c != ')'
    if areFlags flags then
      match rest.drop flags.length with
      | ':' :: rest => some (.group (unicodeAfter unicode flags) none, rest)
      | _ :: rest =>
        if flags.isEmpty then none else some (.setting (unicodeAfter unicode flags), rest)
      | [] => none
    else none
  | rest => some (.group unicode none, rest)

/-! ## Patterns -/

def isRepetition (c : Char) : Bool := c == '?' || c == '*' || c == '+'

/-- The rest after a question mark that makes a repetition lazy. -/
def dropLazy : List Char → List Char
  | '?' :: rest => rest
  | s => s

/-- Whether the rest of a pattern is well formed. `groups` holds for each open group whether
Unicode is meant after it, `names` the names of groups so far, and `repeatable` whether there is
something in front that can be repeated. Counted repetitions do not occur, because a closing brace
ends the pattern. -/
def isSound (fuel : Nat) (unicode : Bool) (groups : List Bool) (names : List (List Char))
    (repeatable : Bool) (s : List Char) : Bool :=
  match fuel, s with
  | _, [] => groups.isEmpty
  | 0, _ => false
  | fuel + 1, c :: rest =>
    if c = '(' then
      match opening? unicode rest with
      | none => false
      | some (.setting next, rest) => isSound fuel next groups names false rest
      | some (.group inner none, rest) =>
        isSound fuel inner (unicode :: groups) names false rest
      | some (.group inner (some name), rest) =>
        !names.contains name &&
          isSound fuel inner (unicode :: groups) (name :: names) false rest
    else if c = ')' then
      match groups with
      | [] => false
      | outer :: groups => isSound fuel outer groups names true rest
    else if c = '|' then isSound fuel unicode groups names false rest
    else if c = '[' then
      if rest.head? = some '^' ∧ unicode = false then false
      else
        match dropClass? unicode (rest.length + 1) 0 (classStart rest) with
        | some rest => isSound fuel unicode groups names true rest
        | none => false
    else if isRepetition c then
      repeatable && isSound fuel unicode groups names true (dropLazy rest)
    else if c = '\x7b' then false
    else if c = '\\' then
      match escape? unicode rest with
      | some (e, rest) =>
        e.isAllowed unicode && isSound fuel unicode groups names true rest
      | none => false
    else if c = '.' then unicode && isSound fuel unicode groups names true rest
    else (unicode || isAscii c) && isSound fuel unicode groups names true rest

/-- A number behind a plus sign is taken for itself before it is tried as a pattern. -/
def isPlusNumber : List Char → Bool
  | '+' :: s =>
    ["inf", "infinity", "nan"].any (fun w => s.map Char.toLower == w.toList) ||
      (Number.decimalOf? s).isSome
  | _ => false

end Pattern

/-- Whether a text can be asked for as the value of a field. -/
def isPattern (s : List Char) : Bool :=
  Pattern.isPlusNumber s || Pattern.isSound s.length true [] [] false s

end Log
end RefManifest
