import RefManifest.Log.Pattern
import RefManifest.Notice
import RefManifest.Text.Blank

/-!
# RefManifest.Log.Filter

Which notices are written to the log. A filter is a list of rules separated by commas: a level, or
a target with or without a level, and either may ask for a field in brackets. Of the rules that
apply to a notice the one with the longest target decides, of those one that asks for a field, and
of equal ones the last.
-/

namespace RefManifest
namespace Log

open Number Text

/-- Lets notices through up to a rank: those whose target starts with `target` and that have the
field, if one is asked for. -/
structure Rule where
  target : List Char
  field : Option (List Char)
  rank : Nat
deriving Repr, DecidableEq

abbrev Filter := List Rule

def levelWords : List (List Char × Nat) :=
  [("off".toList, 0), ("error".toList, 1), ("warn".toList, 2), ("info".toList, 3),
    ("debug".toList, 4), ("trace".toList, 5)]

def dropPlus : List Char → List Char
  | '+' :: rest => rest
  | s => s

/-- The rank up to five that the digits spell. -/
def rankOfDigits? (s : List Char) : Option Nat :=
  match valueOf? 10 (dropPlus s) with
  | some n => if n ≤ 5 then some n else none
  | none => none

def rankOf? (s : List Char) : Option Nat :=
  match rankOfDigits? s with
  | some n => some n
  | none => levelWords.lookup (s.map Char.toLower)

/-- The rank behind an equals sign; without one everything is let through. -/
def rankAfter? (s : List Char) : Option Nat := if s.isEmpty then some 5 else rankOf? s

/-! ## Reading rules -/

def size : List Char → Nat
  | [] => 0
  | c :: rest => c.utf8Size + size rest

def dropOctets : Nat → List Char → List Char
  | 0, s => s
  | _ + 1, [] => []
  | n + 1, c :: rest => dropOctets (n + 1 - c.utf8Size) rest

def takeOctets : Nat → List Char → List Char
  | 0, _ => []
  | _ + 1, [] => []
  | n + 1, c :: rest => c :: takeOctets (n + 1 - c.utf8Size) rest

def mayStart (c : Char) : Bool := c == '-' || c == ':' || c == '_' || isAlphanumeric c

inductive Request where
  | span
  | field (name : List Char)
  | value
deriving Repr, DecidableEq

/-- The request for a field, which may be followed by an equals sign and a pattern. -/
def fieldRequest? (s : List Char) : Option Request :=
  let name := s.takeWhile fun c => c != '='
  match s.drop name.length with
  | [] => some (.field name)
  | _ :: value => if isPattern (value.takeWhile fun c => c != '=') then some .value else none

/-- The request in brackets and what follows them. `inside` starts after the opening bracket, and
`start` counts the octets up to there; texts are cut out of `piece` by such counts. -/
def request? (piece : List Char) (start : Nat) (inside : List Char) :
    Option (Request × List Char) :=
  let span := inside.takeWhile fun c => c != ']' && c != '\x7b'
  match inside.drop span.length with
  | ']' :: rest => some (.span, rest)
  | _ :: rest =>
    let field := rest.takeWhile fun c => c != '\x7d'
    match rest.drop field.length with
    | _ :: ']' :: rest =>
      if field.isEmpty then none
      else
        (fieldRequest? (takeOctets (size field) (dropOctets (start + size span + 1) piece))).map
          fun request => (if span.isEmpty then request else .span, rest)
    | _ => none
  | [] => none

/-- What the piece adds behind its brackets. Only a request for a field alone can let a notice
through, since no notice is inside a span. -/
def ruleBehind? (piece target : List Char) (request : Request) (rest bare : List Char) :
    Option (List Rule) :=
  let rank :=
    match rest with
    | [] => some 5
    | '=' :: level => rankAfter? (dropOctets (size bare - size level) piece)
    | _ => none
  match rank, request with
  | some rank, .field name => some [⟨target, some name, rank⟩]
  | some _, _ => some []
  | none, _ => none

/-- What a piece of a filter adds. Places are counted after the blanks at the front, and cut out of
the whole piece. -/
def ruleOf? (piece : List Char) : Option (List Rule) :=
  let bare := trim piece
  match bare with
  | [] => none
  | c :: _ =>
    let head := bare.takeWhile fun x => x != '=' && x != '['
    let target := takeOctets (size head) piece
    if c != '[' && !mayStart c then none
    else
      match bare.drop head.length with
      | [] =>
        match rankOf? piece with
        | some rank => some [⟨[], none, rank⟩]
        | none => some [⟨piece, none, 5⟩]
      | '=' :: _ =>
        (rankAfter? (dropOctets (size head + 1) piece)).map fun rank => [⟨target, none, rank⟩]
      | _ :: inside =>
        match request? piece (size head + 1) inside with
        | some (request, rest) => ruleBehind? piece target request rest bare
        | none => none

def pieces : List Char → List (List Char)
  | [] => [[]]
  | c :: rest =>
    match pieces rest with
    | [] => [[c]]
    | p :: ps => if c = ',' then [] :: p :: ps else (c :: p) :: ps

def rulesOf? : List (List Char) → Option Filter
  | [] => some []
  | p :: rest =>
    match ruleOf? p, rulesOf? rest with
    | some rules, some more => some (rules ++ more)
    | _, _ => none

def Filter.upTo (level : RefManifest.Level) : Filter := [⟨[], none, level.rank⟩]

/-- The filter that a text spells, if it is one. Empty pieces do not count. -/
def Filter.parse? (text : List Char) : Option Filter :=
  rulesOf? ((pieces text).filter fun p => !p.isEmpty)

/-- The filter of a run: the one that was set if it can be read, or else that of the level. -/
def Filter.choose (setting : Option String) (level : RefManifest.Level) : Filter :=
  match setting.bind fun s => Filter.parse? s.toList with
  | some f => f
  | none => Filter.upTo level

/-! ## Applying filters -/

/-- The fields that a notice can have, the decisive one last. -/
def fieldNames : List (List Char) := ["fatal".toList, "message".toList]

def hasField (n : Notice) (name : List Char) : Bool :=
  name == "message".toList || (name == "fatal".toList && n.fatal?.isSome)

def Rule.applies (r : Rule) (n : Notice) : Bool :=
  (stripLead? r.target n.topic.target.toList).isSome && r.field.all (hasField n)

/-- How much the field that a rule asks for counts. -/
def Rule.fieldWeight (r : Rule) : Nat :=
  match r.field with
  | none => 0
  | some name => fieldNames.idxOf name + 1

/-- Whether `r` gives way to `b`, which came before it. -/
def Rule.yieldsTo (r b : Rule) : Bool :=
  r.target.length < b.target.length ||
    (r.target.length == b.target.length && r.fieldWeight < b.fieldWeight)

def Filter.ruleFor? (f : Filter) (n : Notice) : Option Rule :=
  (f.filter fun r => r.applies n).foldl
    (fun best r =>
      match best with
      | some b => if r.yieldsTo b then some b else some r
      | none => some r)
    none

def Filter.passes (f : Filter) (n : Notice) : Bool :=
  match f.ruleFor? n with
  | some r => n.level.rank ≤ r.rank
  | none => false

end Log
end RefManifest
