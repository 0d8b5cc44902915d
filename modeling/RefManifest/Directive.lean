import RefManifest.Requirement
import RefManifest.Text.Blank

/-!
# RefManifest.Directive

Directives in comment lines. A comment is a line of `#` marks or a line that is one template
comment; its body is a directive if it opens with one of the tokens below.
-/

namespace RefManifest

open Text

inductive Directive where
  | part (name : String)
  | component (name : String)
  | componentRequirement (requirement : Requirement)
  | templateRequirement (requirement : Requirement)
deriving Repr, DecidableEq

namespace Directive

/-- The text after the leading `#` marks. -/
def hashBody? (s : List Char) : Option (List Char) :=
  match s with
  | '#' :: rest => some (rest.dropWhile fun c => c == '#')
  | _ => none

def dropDash : List Char → List Char
  | '-' :: rest => rest
  | s => s

/-- The text between `/*` and `*/` of a template comment, with its optional trim marks. -/
def templateBody? (s : List Char) : Option (List Char) :=
  match stripLead? ['{', '{'] s with
  | none => none
  | some opened =>
    match stripLead? ['/', '*'] (trimStart (dropDash opened)) with
    | none => none
    | some inner =>
      match stripTail? ['}', '}'] inner with
      | none => none
      | some closed =>
        let bare := (dropDash closed.reverse).reverse
        stripTail? ['*', '/'] (trimEnd bare)

/-- The body of the comment that the line consists of. -/
def commentBody? (line : List Char) : Option (List Char) :=
  let t := trim line
  let body := match hashBody? t with
    | some b => some b
    | none => templateBody? t
  match body with
  | some b => if '\n' ∈ b then none else some b
  | none => none

def partToken : List Char := "cluster-compare-part:".toList

def componentToken : List Char := "cluster-compare-component:".toList

def componentRequiredToken : List Char := "cluster-compare-component-required".toList

def componentOptionalToken : List Char := "cluster-compare-component-optional".toList

def requiredToken : List Char := "cluster-compare-required".toList

def optionalToken : List Char := "cluster-compare-optional".toList

/-- The name a name directive gives, unless nothing but blanks follows its token. -/
def name? (rest : List Char) : Option String :=
  match trim rest with
  | [] => none
  | c :: cs => some (String.ofList (c :: cs))

def ofWord? (word : List Char) : Option Directive :=
  if word = componentRequiredToken then some (.componentRequirement .required)
  else if word = componentOptionalToken then some (.componentRequirement .optional)
  else if word = requiredToken then some (.templateRequirement .required)
  else if word = optionalToken then some (.templateRequirement .optional)
  else none

/-- The directive a comment body holds. A name directive without a name is none, and further
words after a status token are ignored. -/
def ofBody? (body : List Char) : Option Directive :=
  let b := trim body
  match stripLead? partToken b with
  | some rest => (name? rest).map .part
  | none =>
    match stripLead? componentToken b with
    | some rest => (name? rest).map .component
    | none => (firstWord? b).bind ofWord?

def parseLine (line : List Char) : Option Directive := (commentBody? line).bind ofBody?

end Directive
end RefManifest
