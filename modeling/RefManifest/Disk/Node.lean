import RefManifest.Path

/-!
# RefManifest.Disk.Node

File trees as values. A node is a regular file, a symbolic link or a directory; `get?` follows
names through directories only, so a path that `get?` answers runs through real directories.
-/

namespace RefManifest
namespace Disk

open Text

inductive Node where
  | file (content : Octets)
  | link (target : Path)
  | dir (entries : List (Name × Node))
deriving Repr, Inhabited

namespace Node

def isDir : Node → Bool
  | .dir _ => true
  | _ => false

def entries : Node → List (Name × Node)
  | .dir es => es
  | _ => []

/-- The node below `names`, reached through directories. -/
def get? : List Name → Node → Option Node
  | [], x => some x
  | n :: rest, .dir es =>
    match es.lookup n with
    | some y => get? rest y
    | none => none
  | _ :: _, _ => none

/-- Replaces the entry of that name, or adds one at the end. -/
def setEntry (n : Name) (x : Node) : List (Name × Node) → List (Name × Node)
  | [] => [(n, x)]
  | (m, y) :: rest => if m = n then (n, x) :: rest else (m, y) :: setEntry n x rest

def eraseEntry (n : Name) : List (Name × Node) → List (Name × Node)
  | [] => []
  | (m, y) :: rest => if m = n then rest else (m, y) :: eraseEntry n rest

theorem lookup_setEntry (n m : Name) (x : Node) (es : List (Name × Node)) :
    (setEntry n x es).lookup m = if m = n then some x else es.lookup m := by
  induction es with
  | nil =>
    by_cases h : m = n
    · subst h; simp [setEntry]
    · have hb : (m == n) = false := by simpa using h
      simp [setEntry, List.lookup_cons, h, hb]
  | cons e es ih =>
    obtain ⟨k, y⟩ := e
    by_cases hk : k = n
    · subst hk
      by_cases h : m = k
      · subst h; simp [setEntry]
      · have hb : (m == k) = false := by simpa using h
        simp [setEntry, List.lookup_cons, h, hb]
    · by_cases h : m = k
      · subst h; simp [setEntry, hk]
      · have hb : (m == k) = false := by simpa using h
        simp [setEntry, hk, List.lookup_cons, hb, ih]

/-- Applies `f` to the entries of the directory below `names`, if there is one. -/
def editDir (f : List (Name × Node) → List (Name × Node)) : List Name → Node → Node
  | [], .dir es => .dir (f es)
  | n :: rest, .dir es =>
    match es.lookup n with
    | some y => .dir (setEntry n (editDir f rest y) es)
    | none => .dir es
  | _, x => x

/-- Puts an entry in front of the first one whose name does not come before its own. -/
def insertByName {α : Type} (e : Name × α) : List (Name × α) → List (Name × α)
  | [] => [e]
  | f :: rest => if e.1 ≤ f.1 then e :: f :: rest else f :: insertByName e rest

/-- Sorts by name, octet by octet. -/
def sortByName {α : Type} (xs : List (Name × α)) : List (Name × α) := xs.foldr insertByName []

mutual

/-- The nodes of the tree with the names that lead to each: a directory and then what it holds,
siblings in the order of their names. Links are not followed. -/
def walk : Node → List (List Name × Node)
  | .file c => [([], .file c)]
  | .link target => [([], .link target)]
  | .dir es =>
    ([], .dir es) ::
      (sortByName (walkEntries es)).flatMap fun e => e.2.map fun f => (e.1 :: f.1, f.2)

def walkEntries : List (Name × Node) → List (Name × List (List Name × Node))
  | [] => []
  | (n, x) :: rest => (n, x.walk) :: walkEntries rest

end

/-- A name that a directory entry can bear. -/
def ValidName (n : Name) : Prop :=
  n ≠ [] ∧ n ≠ [Path.dot] ∧ n ≠ [Path.dot, Path.dot] ∧ Path.slash ∉ n ∧ (0 : UInt8) ∉ n

mutual

/-- Every directory holds each name once, and only names that an entry can bear. -/
def Valid : Node → Prop
  | .file _ => True
  | .link _ => True
  | .dir es => (es.map (·.1)).Nodup ∧ ValidEntries es

def ValidEntries : List (Name × Node) → Prop
  | [] => True
  | (n, x) :: rest => ValidName n ∧ x.Valid ∧ ValidEntries rest

end

instance (n : Name) : Decidable (ValidName n) :=
  inferInstanceAs (Decidable (_ ∧ _ ∧ _ ∧ _ ∧ _))

mutual

def decideValid : (x : Node) → Decidable x.Valid
  | .file _ => inferInstanceAs (Decidable True)
  | .link _ => inferInstanceAs (Decidable True)
  | .dir es =>
    have := decideValidEntries es
    inferInstanceAs (Decidable (_ ∧ _))

def decideValidEntries : (es : List (Name × Node)) → Decidable (ValidEntries es)
  | [] => inferInstanceAs (Decidable True)
  | (_, x) :: rest =>
    have := x.decideValid
    have := decideValidEntries rest
    inferInstanceAs (Decidable (_ ∧ _ ∧ _))

end

instance (x : Node) : Decidable x.Valid := x.decideValid

end Node
end Disk
end RefManifest
