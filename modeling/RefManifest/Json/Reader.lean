import RefManifest.Json.Document
import RefManifest.Text.Quoted

/-!
# RefManifest.Json.Reader

Reading typed values out of a JSON document. A fault of the text is `malformed`; a value of the
wrong kind is told by a message that names what was found and what was expected.
-/

namespace RefManifest
namespace Json

inductive ReadError where
  | malformed
  | data (message : String)
deriving Repr, DecidableEq

abbrev Reader (α : Type) := Document → Except ReadError α

namespace Document

/-- What the document is, in a message; nothing for one that cannot be told. -/
def found? : Document → Option String
  | .null => some "null"
  | .bool true => some "boolean `true`"
  | .bool false => some "boolean `false`"
  | .number n => n.value.text
  | .text s => some ("string " ++ Text.quoted (String.ofList s))
  | .list _ => some "sequence"
  | .object _ => some "map"
  | .brokenText => none
  | .cut => none

def unexpected (expected : String) (d : Document) : ReadError :=
  match d.found? with
  | some found => .data ("invalid type: " ++ found ++ ", expected " ++ expected)
  | none => .malformed

end Document

namespace Reader

def text : Reader String
  | .text s => .ok (String.ofList s)
  | d => .error (d.unexpected "a string")

def items {α : Type} (item : Reader α) : List Document → Except ReadError (List α)
  | [] => .ok []
  | d :: rest =>
    match item d with
    | .error e => .error e
    | .ok x =>
      match items item rest with
      | .error e => .error e
      | .ok xs => .ok (x :: xs)

def list {α : Type} (item : Reader α) : Reader (List α)
  | .list ds => items item ds
  | d => .error (d.unexpected "a sequence")

/-- Reads the fields of an object into `s`. `take` knows the fields that matter; any other one
is skipped, but no known one may come twice. -/
def fields {σ : Type} (take : String → Option (σ → Reader σ)) (seen : List String) (s : σ) :
    List (Document × Document) → Except ReadError σ
  | [] => .ok s
  | (.text name, d) :: rest =>
    let name := String.ofList name
    match take name with
    | none => if d.isWhole then fields take seen s rest else .error .malformed
    | some read =>
      if name ∈ seen then .error (.data ("duplicate field `" ++ name ++ "`"))
      else
        match read s d with
        | .error e => .error e
        | .ok s => fields take (name :: seen) s rest
  | _ :: _ => .error .malformed

/-- A value that a structure cannot do without. -/
def needed {α : Type} (name : String) : Option α → Except ReadError α
  | some x => .ok x
  | none => .error (.data ("missing field `" ++ name ++ "`"))

/-- Takes the items in order, as the fields `names` of a structure; those after the first
`least` may be left out at the end. -/
def inOrder {σ : Type} (take : String → Option (σ → Reader σ)) (shape : String) (least : Nat)
    (count : Nat) (s : σ) : List String → List Document → Except ReadError σ
  | [], [] => .ok s
  | [], _ :: _ => .error .malformed
  | _ :: _, [] =>
    if count < least then
      .error (.data ("invalid length " ++ toString count ++ ", expected " ++ shape))
    else .ok s
  | name :: names, d :: rest =>
    match take name with
    | none => .error .malformed
    | some read =>
      match read s d with
      | .error e => .error e
      | .ok s => inOrder take shape least (count + 1) s names rest

/-- What the reader of a structure has to know: its fields in order, how many of them a list of
values has to give, and how to read each. -/
structure Shape (σ : Type) where
  name : String
  fieldNames : List String
  least : Nat
  start : σ
  take : String → Option (σ → Reader σ)

def Shape.label {σ : Type} (shape : Shape σ) : String := "struct " ++ shape.name

def Shape.labelWithSize {σ : Type} (shape : Shape σ) : String :=
  shape.label ++ " with " ++ toString shape.fieldNames.length ++
    (if shape.fieldNames.length = 1 then " element" else " elements")

/-- Reads a structure given as an object or as the list of its values. -/
def Shape.read {σ : Type} (shape : Shape σ) : Reader σ
  | .object fs => fields shape.take [] shape.start fs
  | .list ds =>
    inOrder shape.take shape.labelWithSize shape.least 0 shape.start shape.fieldNames ds
  | d => .error (d.unexpected shape.label)

end Reader
end Json
end RefManifest
