/-!
# RefManifest.Glob.Pattern

Glob patterns as tokens. `?` and `*` cross slashes, `**` has to fill a whole component, and a
class in brackets holds characters and ranges; there is no escape character.
-/

namespace RefManifest
namespace Glob

inductive Specifier where
  | char (c : Char)
  | range (low high : Char)
deriving Repr, DecidableEq

inductive Token where
  | char (c : Char)
  | anyChar
  | anySequence
  | anyDirectories
  | within (specifiers : List Specifier)
  | except (specifiers : List Specifier)
deriving Repr, DecidableEq

abbrev Pattern := List Token

inductive Flaw where
  | wildcards
  | recursiveWildcards
  | invalidRange
deriving Repr, DecidableEq

def Flaw.message : Flaw → String
  | .wildcards => "wildcards are either regular `*` or recursive `**`"
  | .recursiveWildcards => "recursive wildcards must form a single path component"
  | .invalidRange => "invalid range pattern"

/-- A flaw and the number of characters before it. -/
structure SyntaxFault where
  position : Nat
  flaw : Flaw
deriving Repr, DecidableEq

def SyntaxFault.message (f : SyntaxFault) : String :=
  "Pattern syntax error near position " ++ toString f.position ++ ": " ++ f.flaw.message

def specifiers : List Char → List Specifier
  | a :: '-' :: b :: rest => .range a b :: specifiers rest
  | a :: rest => .char a :: specifiers rest
  | [] => []

/-- The characters up to the next `]` and those after it. -/
def splitClass? : List Char → Option (List Char × List Char)
  | [] => none
  | c :: rest =>
    if c = ']' then some ([], rest)
    else (splitClass? rest).map fun r => (c :: r.1, r.2)

/-- A class after its `[`: the token, the number of characters it takes and the rest. The first
member may be `]`. -/
def classToken? : List Char → Option (Token × Nat × List Char)
  | '!' :: first :: rest =>
    match splitClass? rest with
    | some (more, after) => some (.except (specifiers (first :: more)), more.length + 3, after)
    | none => none
  | '!' :: [] => none
  | first :: rest =>
    match splitClass? rest with
    | some (more, after) => some (.within (specifiers (first :: more)), more.length + 2, after)
    | none => none
  | [] => none

/-- Adds `**` unless it follows another one that is not the first token. -/
def pushDirectories (tokens : List Token) : List Token :=
  match tokens with
  | .anyDirectories :: _ :: _ => tokens
  | _ => .anyDirectories :: tokens

/-- Reads the pattern from `position` on. `before` is the last character read and `tokens` holds
the tokens so far, the last one first. -/
def tokensFrom : Nat → Nat → Option Char → List Token → List Char →
    Except SyntaxFault (List Token)
  | _, _, _, tokens, [] => .ok tokens.reverse
  | 0, _, _, tokens, _ => .ok tokens.reverse
  | fuel + 1, position, before, tokens, c :: rest =>
    if c = '?' then tokensFrom fuel (position + 1) (some c) (.anyChar :: tokens) rest
    else if c = '*' then
      match rest with
      | '*' :: '*' :: _ => .error ⟨position + 2, .wildcards⟩
      | '*' :: after =>
        if before = none ∨ before = some '/' then
          match after with
          | [] => .ok (pushDirectories tokens).reverse
          | d :: more =>
            if d = '/' then
              tokensFrom fuel (position + 3) (some '/') (pushDirectories tokens) more
            else .error ⟨position + 2, .recursiveWildcards⟩
        else .error ⟨position - 1, .recursiveWildcards⟩
      | _ => tokensFrom fuel (position + 1) (some c) (.anySequence :: tokens) rest
    else if c = '[' then
      match classToken? rest with
      | some (token, size, after) =>
        tokensFrom fuel (position + size + 1) (some ']') (token :: tokens) after
      | none => .error ⟨position, .invalidRange⟩
    else tokensFrom fuel (position + 1) (some c) (.char c :: tokens) rest

/-- The tokens of a pattern. Every step reads a character, so the length bounds the steps. -/
def parse (text : List Char) : Except SyntaxFault Pattern :=
  tokensFrom text.length 0 none [] text

end Glob
end RefManifest
