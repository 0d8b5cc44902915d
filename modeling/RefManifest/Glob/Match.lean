import RefManifest.Glob.Pattern

/-!
# RefManifest.Glob.Match

Matching by backtracking. A wildcard tries every place where the rest may start; once the rest
of the pattern has run out of text, no later place can help, and the search ends.
-/

namespace RefManifest
namespace Glob

inductive Outcome where
  | matched
  | mismatch
  | exhausted
deriving Repr, DecidableEq

def Specifier.admits (c : Char) : Specifier → Bool
  | .char a => a == c
  | .range low high => low ≤ c && c ≤ high

def admits (specifiers : List Specifier) (c : Char) : Bool := specifiers.any (·.admits c)

/-- Tries `rest` after each character that `boundary` admits, and at the end. -/
def seek (rest : List Char → Outcome) (boundary : Char → Bool) : List Char → Outcome
  | [] => rest []
  | c :: text =>
    if boundary c then
      match rest text with
      | .mismatch => seek rest boundary text
      | outcome => outcome
    else seek rest boundary text

/-- Tries `rest` here and then at the later places. -/
def expand (rest : List Char → Outcome) (boundary : Char → Bool) (text : List Char) : Outcome :=
  match rest text with
  | .mismatch => seek rest boundary text
  | outcome => outcome

def one (accepts : Char → Bool) (rest : List Char → Outcome) : List Char → Outcome
  | [] => .exhausted
  | c :: text => if accepts c then rest text else .mismatch

def run : Pattern → List Char → Outcome
  | [], text => if text.isEmpty then .matched else .mismatch
  | .anySequence :: rest, text => expand (run rest) (fun _ => true) text
  | .anyDirectories :: rest, text => expand (run rest) (fun c => c == '/') text
  | .char a :: rest, text => one (fun c => a == c) (run rest) text
  | .anyChar :: rest, text => one (fun _ => true) (run rest) text
  | .within s :: rest, text => one (admits s) (run rest) text
  | .except s :: rest, text => one (fun c => !admits s c) (run rest) text

def matchesText (pattern : Pattern) (text : List Char) : Bool := run pattern text == .matched

end Glob
end RefManifest
