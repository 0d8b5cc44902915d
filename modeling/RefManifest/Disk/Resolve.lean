import RefManifest.Disk.Fault
import RefManifest.Disk.Node

/-!
# RefManifest.Disk.Resolve

From paths to places in a tree. A place is the list of names from the root; resolving a path
follows symbolic links, `.` and `..`, with a budget of 40 links.
-/

namespace RefManifest

namespace Path

/-- How many octets a path may have that is handed to the system. -/
def maxLength : Nat := 4095

def isTooLong (p : Path) : Bool := maxLength < p.octets.length

end Path

namespace Disk

open Text

inductive Step where
  | here
  | up
  | name (n : Name)
deriving Repr, DecidableEq

def Step.ofPiece (piece : Octets) : Step :=
  if piece = [] ∨ piece = [Path.dot] then .here
  else if piece = [Path.dot, Path.dot] then .up
  else .name piece

/-- The steps of a path. A slash at the end is a step that asks for a directory. -/
def stepsOf (p : Path) : List Step := (Path.pieces p.octets).map Step.ofPiece

def maxLinks : Nat := 40

def maxNameLength : Nat := 255

/-- The place that `pending` leads to from the place `start`. A link that is the last step is
followed only if `follow` is set, and behind a link it is `jump` that goes on. Each place that a
name leads to has to be one that `fits`. -/
def resolveThrough (root : Node) (follow : Bool) (fits : List Name → Bool)
    (jump : List Name → List Step → Except Fault (List Name)) (start : List Name)
    (pending : List Step) : Except Fault (List Name) :=
  match pending with
  | [] => .ok start
  | step :: rest =>
    match root.get? start with
    | some (.dir es) =>
      match step with
      | .here => resolveThrough root follow fits jump start rest
      | .up => resolveThrough root follow fits jump start.dropLast rest
      | .name n =>
        if maxNameLength < n.length ∨ fits (start ++ [n]) = false then .error .nameTooLong
        else
          match es.lookup n with
          | none => .error .missing
          | some (.link target) =>
            if rest = [] ∧ follow = false then .ok (start ++ [n])
            else jump (if target.isAbsolute then [] else start) (stepsOf target ++ rest)
          | some _ => resolveThrough root follow fits jump (start ++ [n]) rest
    | _ => .error .notDirectory

/-- The same, through a number of links at most. The budget goes down by one at each link and the
steps get fewer in between, so resolving a path can be evaluated. -/
def resolveFrom (root : Node) (follow : Bool) (fits : List Name → Bool) :
    Nat → List Name → List Step → Except Fault (List Name)
  | 0 => resolveThrough root follow fits fun _ _ => .error .linkLoop
  | left + 1 => resolveThrough root follow fits (resolveFrom root follow fits left)

/-- What a path has to satisfy before it is looked at. -/
def admissible (p : Path) : Except Fault Unit :=
  if (0 : UInt8) ∈ p.octets then .error .nulInPath
  else if p.isEmpty then .error .missing
  else if p.isTooLong then .error .nameTooLong
  else .ok ()

def anyPlace (_ : List Name) : Bool := true

/-- Places that their absolute path can name. -/
def isNameable (place : List Name) : Bool := !(Path.ofRoot place).isTooLong

end Disk

/-- A file tree together with the place that relative paths start from. -/
structure FileSystem where
  root : Disk.Node
  here : List Name
deriving Repr, Inhabited

namespace FileSystem

open Disk

/-- Where the steps of `p` start. -/
def startOf (fs : FileSystem) (p : Path) : List Name := if p.isAbsolute then [] else fs.here

def locate (fs : FileSystem) (follow : Bool) (p : Path) : Except Fault (List Name) :=
  match admissible p with
  | .error f => .error f
  | .ok _ => resolveFrom fs.root follow anyPlace maxLinks (fs.startOf p) (stepsOf p)

def find (fs : FileSystem) (follow : Bool) (p : Path) : Except Fault (List Name × Node) :=
  match fs.locate follow p with
  | .error f => .error f
  | .ok place =>
    match fs.root.get? place with
    | some x => .ok (place, x)
    | none => .error .missing

/-- The place that `p` names once links are followed, if something is there. The path is taken
name by name, so it may be of any length, but not the absolute path of a place on the way. -/
def canonical? (fs : FileSystem) (p : Path) : Option (List Name) :=
  if (0 : UInt8) ∈ p.octets ∨ p.isEmpty then none
  else
    match resolveFrom fs.root true isNameable maxLinks (fs.startOf p) (stepsOf p) with
    | .ok place => if (fs.root.get? place).isSome then some place else none
    | .error _ => none

/-- The path from the root by which `p` is meant here. -/
def absolute (fs : FileSystem) (p : Path) : Path := (Path.ofRoot fs.here).join p

def holds (fs : FileSystem) (p : Path) : Bool := (fs.find true p).isOk

def isDirectory (fs : FileSystem) (p : Path) : Bool :=
  match fs.find true p with
  | .ok (_, x) => x.isDir
  | .error _ => false

def read (fs : FileSystem) (p : Path) : Except Fault Text.Octets :=
  match fs.find true p with
  | .error f => .error f
  | .ok (_, .file c) => .ok c
  | .ok (_, .dir _) => .error .isDirectory
  | .ok (_, .link _) => .error .linkLoop

/-- The text of the file that `p` names, which has to be well formed. -/
def readText (fs : FileSystem) (p : Path) : Except Fault String :=
  match fs.read p with
  | .error f => .error f
  | .ok c =>
    match Text.Utf8.decode? c with
    | some s => .ok (String.ofList s)
    | none => .error .notText

end FileSystem
end RefManifest
