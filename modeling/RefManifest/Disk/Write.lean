import RefManifest.Disk.Resolve
import RefManifest.Text.Quoted

/-!
# RefManifest.Disk.Write

Changing a file tree. `safeWrite` puts the content into a fresh temporary file beside the target
and moves it over the target, so that the target holds either its old content or all of the new
one, and the temporary file is gone in both cases.
-/

namespace RefManifest
namespace FileSystem

open Text Disk

def editDir (fs : FileSystem) (place : List Name)
    (f : List (Name × Node) → List (Name × Node)) : FileSystem :=
  { fs with root := fs.root.editDir f place }

/-- The place of the directory that the steps lead to, with its entries. -/
def findDir (fs : FileSystem) (p : Path) (steps : List Step) :
    Except Fault (List Name × List (Name × Node)) :=
  match resolveFrom fs.root true anyPlace maxLinks (fs.startOf p) steps with
  | .error f => .error f
  | .ok place =>
    match fs.root.get? place with
    | some (.dir es) => .ok (place, es)
    | _ => .error .notDirectory

def makeDir (fs : FileSystem) (p : Path) : Except Fault FileSystem :=
  match admissible p with
  | .error f => .error f
  | .ok _ =>
    match fs.findDir p (stepsOf p).dropLast with
    | .error f => .error f
    | .ok (place, es) =>
      match (stepsOf p).getLast? with
      | some (.name n) =>
        if maxNameLength < n.length then .error .nameTooLong
        else if (es.lookup n).isSome then .error .alreadyThere
        else .ok (fs.editDir place (Node.setEntry n (.dir [])))
      | _ => .error .alreadyThere

/-- Makes the directory that `p` names and those above it that are missing. What was made stays
when a later one fails. -/
def makeDirsWithin (fs : FileSystem) (p : Path) : Nat → FileSystem × Option Fault
  | 0 => (fs, none)
  | depth + 1 =>
    if p.isEmpty then (fs, none)
    else
      match fs.makeDir p with
      | .ok made => (made, none)
      | .error .missing =>
        match p.parent? with
        | none => (fs, some .missing)
        | some q =>
          match fs.makeDirsWithin q depth with
          | (above, some f) => (above, some f)
          | (above, none) =>
            match above.makeDir p with
            | .ok made => (made, none)
            | .error f => if above.isDirectory p then (above, none) else (above, some f)
      | .error f => if fs.isDirectory p then (fs, none) else (fs, some f)

def makeDirs (fs : FileSystem) (p : Path) : FileSystem × Option Fault :=
  fs.makeDirsWithin p (p.spans.length + 1)

/-- What can stop a safe write. Filling the temporary file and syncing it are not among the causes:
a file tree has room for any content, so on it neither can fail. -/
inductive WriteFault where
  | parentNotDirectory (parent : Path)
  | createDirectory (parent : Path) (fault : Fault)
  | createTemporary (dir temporary : Path) (fault : Fault)
  | rename (target : Path) (fault : Fault)
deriving Repr, DecidableEq

def WriteFault.message : WriteFault → String
  | .parentNotDirectory parent => "Path exists but is not a directory: " ++ parent.display
  | .createDirectory parent fault =>
    "Failed to create directory: " ++ parent.display ++ ": " ++ fault.message
  | .createTemporary dir temporary fault =>
    "Failed to create temp file in: " ++ dir.display ++ ": " ++ fault.message ++ " at path " ++
      quotedOctets temporary.octets
  | .rename target fault =>
    "Failed to rename temp file to: " ++ target.display ++ ": " ++ fault.message

def ensureParent (fs : FileSystem) (p : Path) : FileSystem × Option WriteFault :=
  match p.parent? with
  | none => (fs, none)
  | some parent =>
    if parent.isEmpty then (fs, none)
    else if fs.holds parent then
      if fs.isDirectory parent then (fs, none) else (fs, some (.parentNotDirectory parent))
    else
      match fs.makeDirs parent with
      | (made, none) => (made, none)
      | (made, some fault) => (made, some (.createDirectory parent fault))

/-- The directory beside `p` that holds the temporary file. -/
def temporaryDir (p : Path) : Path :=
  match p.parent? with
  | some parent => if parent.isEmpty then ⟨[Path.dot]⟩ else parent
  | none => ⟨[Path.dot]⟩

def temporaryName (k : Nat) : Name :=
  let digits := Nat.toDigits 10 k
  toOctets ".ccmeta-" ++ Utf8.encode (List.replicate (6 - digits.length) '0' ++ digits) ++
    toOctets ".tmp"

def freshTemporary? (es : List (Name × Node)) : Option Name :=
  ((List.range (es.length + 1)).map temporaryName).find? fun n => (es.lookup n).isNone

/-- Puts a file with the content into the directory that `dir` names, under a temporary name, and
answers where it is. The file is asked for by its absolute path, which a failure names. -/
def createTemporary (fs : FileSystem) (dir : Path) (content : Octets) :
    Except (Path × Fault) (FileSystem × List Name × Name) :=
  let path (n : Name) : Path := (fs.absolute dir).join ⟨n⟩
  let refuse (f : Fault) := Except.error (path (temporaryName 0), f)
  if (path (temporaryName 0)).isTooLong then refuse .nameTooLong
  else
    match fs.find true (fs.absolute dir) with
    | .error f => refuse f
    | .ok (place, .dir es) =>
      match freshTemporary? es with
      | none => refuse .alreadyThere
      | some n => .ok (fs.editDir place (Node.setEntry n (.file content)), place, n)
    | .ok _ => refuse .notDirectory

/-- The path without the slashes at its end, and whether there were any. -/
def trimSlashes (p : Path) : Path × Bool :=
  let kept := (p.octets.reverse.dropWhile fun b => b == Path.slash).reverse
  (⟨kept⟩, kept.length != p.octets.length)

/-- Moves the file `temporary` of the directory at `source` over what `target` names. -/
def moveFile (fs : FileSystem) (source : List Name) (temporary : Name) (content : Octets)
    (target : Path) : Except Fault FileSystem :=
  match admissible target with
  | .error .nulInPath => .error .invalidArgument
  | .error f => .error f
  | .ok _ =>
    let (bare, slashed) := trimSlashes target
    match fs.findDir target (stepsOf bare).dropLast with
    | .error f => .error f
    | .ok (place, es) =>
      match (stepsOf bare).getLast? with
      | some (.name n) =>
        if maxNameLength < n.length then .error .nameTooLong
        else if slashed then .error .notDirectory
        else
          match es.lookup n with
          | some (.dir _) => .error .isDirectory
          | _ =>
            .ok ((fs.editDir source (Node.eraseEntry temporary)).editDir place
              (Node.setEntry n (.file content)))
      | _ => .error .busy

/-- Writes the file that `target` names, whole or not at all. A link at `target` is replaced. The
temporary file goes away with a failure; the only one after it was made is that of the rename. -/
def safeWrite (fs : FileSystem) (target : Path) (content : Octets) :
    FileSystem × Option WriteFault :=
  match fs.ensureParent target with
  | (made, some fault) => (made, some fault)
  | (made, none) =>
    let dir := temporaryDir target
    match made.createTemporary dir content with
    | .error (path, f) => (made, some (.createTemporary dir path f))
    | .ok (written, source, temporary) =>
      match written.moveFile source temporary content target with
      | .ok moved => (moved, none)
      | .error f =>
        (written.editDir source (Node.eraseEntry temporary), some (.rename target f))

end FileSystem
end RefManifest
