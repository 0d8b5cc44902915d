import RefManifest.Glob.Match
import RefManifest.Failure
import RefManifest.Path

/-!
# RefManifest.Excludes

Exclude patterns: globs over paths relative to the reference directory. A pattern that could
reach outside that directory is refused before its syntax is looked at.
-/

namespace RefManifest

structure Excludes where
  patterns : List Glob.Pattern
deriving Repr, DecidableEq, Inhabited

namespace Excludes

inductive Refusal where
  | parentReference
  | absolute
  | faulty (fault : Glob.SyntaxFault)
deriving Repr, DecidableEq

def Refusal.message : Refusal → String
  | .parentReference => "patterns must not contain '..'"
  | .absolute => "patterns must be relative to the reference directory"
  | .faulty fault => fault.message

def hasParentReference : List Char → Bool
  | '.' :: '.' :: _ => true
  | _ :: rest => hasParentReference rest
  | [] => false

def isAsciiLetter (c : Char) : Bool := ('a' ≤ c && c ≤ 'z') || ('A' ≤ c && c ≤ 'Z')

/-- A slash at the start, or a drive letter with a colon and a slash of either kind. -/
def startsAbsolute : List Char → Bool
  | '/' :: _ => true
  | letter :: ':' :: '/' :: _ => isAsciiLetter letter
  | letter :: ':' :: '\\' :: _ => isAsciiLetter letter
  | _ => false

def compile (pattern : List Char) : Except Refusal Glob.Pattern :=
  if hasParentReference pattern then .error .parentReference
  else if startsAbsolute pattern then .error .absolute
  else
    match Glob.parse pattern with
    | .ok p => .ok p
    | .error fault => .error (.faulty fault)

def compileAll : List String → Except Failure (List Glob.Pattern)
  | [] => .ok []
  | text :: rest =>
    match compile text.toList with
    | .error refusal => .error (.invalidExcludePattern text refusal.message)
    | .ok p =>
      match compileAll rest with
      | .error f => .error f
      | .ok ps => .ok (p :: ps)

/-- Compiles every pattern; the first one that is refused is the failure. -/
def ofPatterns (texts : List String) : Except Failure Excludes :=
  match compileAll texts with
  | .error f => .error f
  | .ok ps => .ok ⟨ps⟩

def isEmpty (e : Excludes) : Bool := e.patterns.isEmpty

/-- Whether some pattern matches the path in slash form. -/
def excludes (e : Excludes) (relative : Path) : Bool :=
  e.patterns.any fun p => Glob.matchesText p relative.slashed

end Excludes
end RefManifest
