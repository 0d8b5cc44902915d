import RefManifest.Toml.Scalar
import RefManifest.Toml.Tree

/-!
# RefManifest.Toml.Reader

From the text of a TOML document to its table. The text is read into the pairs before the first
header and the pairs under each header; these are then put together in order. Any fault makes
the whole text unreadable, so nothing is said about it.
-/

namespace RefManifest
namespace Toml

def maxDepth : Nat := 80

abbrev Pair := List (List Char) × Value

mutual

def value? (fuel depth : Nat) (s : List Char) : Option (Value × List Char) :=
  match fuel with
  | 0 => none
  | fuel + 1 =>
    match s with
    | '[' :: rest =>
      match depth with
      | 0 => none
      | depth + 1 => (items? fuel depth (skipLines rest)).map fun r => (.array r.1, r.2)
    | '\x7b' :: rest =>
      match depth with
      | 0 => none
      | depth + 1 =>
        match members? fuel depth (skipLines rest) with
        | none => none
        | some (pairs, rest) =>
          (Fields.insertAll pairs []).map fun fs => (.table (fieldValues fs), rest)
    | c :: _ =>
      if c = '"' ∨ c = '\'' then (string? s).map fun r => (.string r.1, r.2)
      else
        let (word, rest) := splitWord s
        (ofWord? word).map fun v => (v, rest)
    | [] => none

/-- The items of an array up to its closing bracket. -/
def items? (fuel depth : Nat) (s : List Char) : Option (List Value × List Char) :=
  match fuel with
  | 0 => none
  | fuel + 1 =>
    match s with
    | ']' :: rest => some ([], rest)
    | _ =>
      match value? fuel depth s with
      | none => none
      | some (v, rest) =>
        match skipLines rest with
        | ',' :: rest => (items? fuel depth (skipLines rest)).map fun r => (v :: r.1, r.2)
        | ']' :: rest => some ([v], rest)
        | _ => none

/-- The pairs of an inline table up to its closing brace. -/
def members? (fuel depth : Nat) (s : List Char) : Option (List Pair × List Char) :=
  match fuel with
  | 0 => none
  | fuel + 1 =>
    match s with
    | '\x7d' :: rest => some ([], rest)
    | _ =>
      match pair? skipLines fuel depth s with
      | none => none
      | some (p, rest) =>
        match skipLines rest with
        | ',' :: rest => (members? fuel depth (skipLines rest)).map fun r => (p :: r.1, r.2)
        | '\x7d' :: rest => some ([p], rest)
        | _ => none

/-- A key, an equals sign and a value. `skip` drops what may stand around the equals sign:
blanks in a statement, whole lines in an inline table. -/
def pair? (skip : List Char → List Char) (fuel depth : Nat) (s : List Char) :
    Option (Pair × List Char) :=
  match fuel with
  | 0 => none
  | fuel + 1 =>
    match key? s with
    | none => none
    | some (key, rest) =>
      match skip rest with
      | '=' :: rest => (value? fuel depth (skip rest)).map fun r => ((key, r.1), r.2)
      | _ => none

end

/-! ## Statements -/

inductive Header where
  | table (key : List (List Char))
  | element (key : List (List Char))
deriving Repr, DecidableEq

structure Section where
  header : Header
  pairs : List Pair
deriving Repr

/-- The header at the front, after its first bracket. -/
def header? : List Char → Option (Header × List Char)
  | '[' :: s =>
    match key? s with
    | some (key, ']' :: ']' :: rest) => some (.element key, rest)
    | _ => none
  | s =>
    match key? s with
    | some (key, ']' :: rest) => some (.table key, rest)
    | _ => none

/-- The pairs before the first header, and the sections. -/
def statements? : Nat → List Char → Option (List Pair × List Section)
  | 0, _ => none
  | fuel + 1, s =>
    match skipLines s with
    | [] => some ([], [])
    | '[' :: rest =>
      match header? rest with
      | none => none
      | some (header, rest) =>
        match endOfLine? rest with
        | none => none
        | some rest =>
          (statements? fuel rest).map fun r => ([], ⟨header, r.1⟩ :: r.2)
    | s =>
      match pair? skipWhite (s.length * 4 + 4) maxDepth s with
      | none => none
      | some (p, rest) =>
        match endOfLine? rest with
        | none => none
        | some rest => (statements? fuel rest).map fun r => (p :: r.1, r.2)

def addSections : List Section → Fields → Option Fields
  | [], fs => some fs
  | s :: rest, fs =>
    let added :=
      match s.header with
      | .table key => Fields.addTable key s.pairs fs
      | .element key => Fields.addElement key s.pairs fs
    match added with
    | none => none
    | some fs => addSections rest fs

/-- A byte order mark at the start does not count. -/
def dropMark : List Char → List Char
  | '\uFEFF' :: rest => rest
  | s => s

def parse? (text : List Char) : Option Table :=
  let s := dropMark text
  match statements? (s.length + 1) s with
  | none => none
  | some (pairs, sections) =>
    match Fields.insertAll pairs [] with
    | none => none
    | some fs => (addSections sections fs).map fieldValues

end Toml
end RefManifest
