import RefManifest.Disk.Resolve
import RefManifest.Excludes
import RefManifest.Notice

/-!
# RefManifest.Discovery

Finding the templates below a directory: every regular file that is reached through directories
only, in the order of the names on the way, unless it is a skipped path or excluded by a pattern.
-/

namespace RefManifest

open Disk

structure Template where
  names : List Name
  content : Text.Octets
deriving Repr, DecidableEq, Inhabited

namespace Template

/-- The path from the reference directory. -/
def path (t : Template) : Path := Path.ofNames t.names

/-- The path as the walk from `base` meets it. -/
def pathFrom (base : Path) (t : Template) : Path := base.below t.names

def id (t : Template) : String := t.path.toSlash

end Template

namespace Discovery

def walkFailure (base : Path) (fault : Fault) : Failure :=
  .directoryWalk base.display
    ("IO error for operation on " ++ base.display ++ ": " ++ fault.message)

/-- The regular files among the nodes. The walk ends at the first directory that cannot be opened
because its path is too long. -/
def gather (base : Path) : List (List Name × Node) → List Template × Option Failure
  | [] => ([], none)
  | (names, .dir _) :: rest =>
    if (base.below names).isTooLong then
      ([], some (walkFailure (base.below names) .nameTooLong))
    else gather base rest
  | (names, .file content) :: rest =>
    (⟨names, content⟩ :: (gather base rest).1, (gather base rest).2)
  | (_, .link _) :: rest => gather base rest

/-- The regular files below `base`, up to the failure that ends the walk if there is one. If `base`
is a link, the directory it leads to is walked. -/
def walk (fs : FileSystem) (base : Path) : List Template × Option Failure :=
  match fs.find false base with
  | .error fault => ([], some (walkFailure base fault))
  | .ok (_, .link _) =>
    match fs.find true base with
    | .error fault => ([], some (walkFailure base fault))
    | .ok (_, x) => if x.isDir then gather base x.walk else ([], none)
  | .ok (_, x) => gather base x.walk

def skipNotice (entry : Path) : Notice := .log .debug .metadata ("Skipping " ++ entry.display)

def excludeNotice (relative : Path) : Notice :=
  .log .trace .pattern ("Excluding " ++ relative.toSlash)

/-- Why a file is no template, told as a notice. -/
def rejection? (base : Path) (excludes : Excludes) (skips : List Path) (t : Template) :
    Option Notice :=
  if skips.any fun skip => skip.same (t.pathFrom base) then some (skipNotice (t.pathFrom base))
  else if excludes.excludes t.path then some (excludeNotice t.path)
  else none

/-- The templates below `base`. Skip paths are compared with the path that the walk meets, without
looking at the disk. -/
def discover (fs : FileSystem) (base : Path) (excludes : Excludes) (skips : List Path) :
    Traced Failure (List Template) :=
  match walk fs base with
  | (found, some f) => ⟨found.filterMap (rejection? base excludes skips), .error f⟩
  | (found, none) =>
    ⟨found.filterMap (rejection? base excludes skips),
      .ok (found.filter fun t => (rejection? base excludes skips t).isNone)⟩

end Discovery
end RefManifest
