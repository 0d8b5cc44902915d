import RefManifest.Toml.Value

/-!
# RefManifest.Toml.Tree

Putting named values and tables together. Each table remembers how it came about, because that
decides what may still be added to it: a table under its own header is never opened again, one
made by dotted keys takes further dotted keys only, and one that a longer header implied may
still get a header of its own. A value is closed.
-/

namespace RefManifest
namespace Toml

inductive Origin where
  | header
  | implied
  | dotted
deriving Repr, DecidableEq

inductive Node where
  | leaf (v : Value)
  | table (origin : Origin) (fields : List (List Char × Node))
  | tables (items : List (List (List Char × Node)))
deriving Repr, Inhabited

abbrev Fields := List (List Char × Node)

namespace Fields

/-- Replaces the node of that name, or adds one at the end. -/
def set (name : List Char) (x : Node) : Fields → Fields
  | [] => [(name, x)]
  | (n, y) :: rest => if n = name then (n, x) :: rest else (n, y) :: set name x rest

def setLast (t : Fields) : List Fields → List Fields
  | [] => [t]
  | [_] => [t]
  | x :: y :: rest => x :: setLast t (y :: rest)

/-- Changes the table that the names lead to, and makes the tables on the way that are missing.
`f` is told how the table came about. In a list of tables the last one is meant. -/
def descend (byDots : Bool) (f : Origin → Fields → Option Fields) (origin : Origin) :
    List (List Char) → Fields → Option Fields
  | [], fs => f origin fs
  | name :: path, fs =>
    let fresh := if byDots then Origin.dotted else .implied
    match fs.lookup name with
    | none => (descend byDots f fresh path []).map fun t => set name (.table fresh t) fs
    | some (.table origin t) =>
      if byDots ∧ origin = .header then none
      else (descend byDots f origin path t).map fun t => set name (.table origin t) fs
    | some (.tables ts) =>
      (descend byDots f .header path (ts.getLastD [])).map fun t =>
        set name (.tables (setLast t ts)) fs
    | some (.leaf _) => none

/-- The names before the last one, and the last one. -/
def splitPath : List (List Char) → List (List Char) × List Char
  | [] => ([], [])
  | [name] => ([], name)
  | name :: next :: rest =>
    let (path, last) := splitPath (next :: rest)
    (name :: path, last)

def insert (key : List (List Char)) (v : Value) (fs : Fields) : Option Fields :=
  let (path, name) := splitPath key
  descend true
    (fun origin t =>
      if (origin == .dotted) == path.isEmpty then none
      else if (t.lookup name).isSome then none
      else some (t ++ [(name, .leaf v)]))
    .header path fs

def insertAll : List (List (List Char) × Value) → Fields → Option Fields
  | [], fs => some fs
  | (key, v) :: rest, fs =>
    match insert key v fs with
    | none => none
    | some fs => insertAll rest fs

def addTable (key : List (List Char)) (pairs : List (List (List Char) × Value)) (fs : Fields) :
    Option Fields :=
  let (path, name) := splitPath key
  descend false
    (fun _ t =>
      match t.lookup name with
      | none => (insertAll pairs []).map fun new => set name (.table .header new) t
      | some (.table .implied old) =>
        (insertAll pairs old).map fun new => set name (.table .header new) t
      | some _ => none)
    .header path fs

/-- Adds one more table to the list of tables under a header. -/
def addElement (key : List (List Char)) (pairs : List (List (List Char) × Value))
    (fs : Fields) : Option Fields :=
  let (path, name) := splitPath key
  descend false
    (fun _ t =>
      match t.lookup name with
      | none => (insertAll pairs []).map fun new => set name (.tables [new]) t
      | some (.tables ts) =>
        (insertAll pairs []).map fun new => set name (.tables (ts ++ [new])) t
      | some _ => none)
    .header path fs

end Fields

mutual

def Node.value : Node → Value
  | .leaf v => v
  | .table _ fields => .table (fieldValues fields)
  | .tables items => .array (tableValues items)

def fieldValues : List (List Char × Node) → Table
  | [] => []
  | (name, x) :: rest => (name, x.value) :: fieldValues rest

def tableValues : List (List (List Char × Node)) → List Value
  | [] => []
  | fields :: rest => .table (fieldValues fields) :: tableValues rest

end

end Toml
end RefManifest
