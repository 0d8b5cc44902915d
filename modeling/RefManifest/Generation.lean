import RefManifest.Discovery
import RefManifest.Hierarchy
import RefManifest.Naming
import RefManifest.Settings

/-!
# RefManifest.Generation

From a reference directory to its manifest. The directory is taken where its links lead; each
template is read, named and filed in the order of the walk, and the first failure ends the run.
-/

namespace RefManifest

open Disk

structure Generated where
  manifest : Manifest
  rendered : String
  errorCount : Nat
deriving Repr, DecidableEq

namespace Generated

def hasErrors (g : Generated) : Bool := 0 < g.errorCount

end Generated

namespace Generation

/-- The place of the reference directory once links are followed. -/
def locate (fs : FileSystem) (dir : Path) : Except Failure (List Name) :=
  match fs.canonical? dir with
  | some place =>
    match fs.root.get? place with
    | some (.dir _) => .ok place
    | _ => .error (.referenceDirNotFound dir.display)
  | none => .error (.referenceDirNotFound dir.display)

/-- The skip paths that lead somewhere, where their links lead. -/
def canonicalSkips (fs : FileSystem) (skips : List Path) : List Path :=
  (skips.filterMap fs.canonical?).map Path.ofRoot

/-- The path that names are derived from: the name of the reference directory, if it has one, and
the path of the template below it. -/
def namingPath (dirName : Option Name) (t : Template) : Path :=
  Path.ofNames (dirName.toList ++ t.names)

def readFailure (path : Path) : Failure :=
  .templateRead path.display Fault.nameTooLong.message

/-- Reads a template of the directory at `place` and names it. -/
def readRecord (place : List Name) (t : Template) : Traced Failure Record :=
  let path := t.pathFrom (Path.ofRoot place)
  if path.isTooLong then ⟨[.fatal (readFailure path).message], .error (readFailure path)⟩
  else
    let (d, warnings) := Directives.extract t.path (Text.ofFile t.content).toList
    match Names.resolve (namingPath place.getLast? t) d.part d.component with
    | .error f => ⟨warnings ++ [.fatal f.message], .error f⟩
    | .ok names => ⟨warnings, .ok ⟨t.id, names.part, names.component, d⟩⟩

def fileAll (place : List Name) (h : Hierarchy) : List Template → Traced Failure Hierarchy
  | [] => .ok h
  | t :: rest =>
    match readRecord place t with
    | ⟨ns, .error f⟩ => ⟨ns, .error f⟩
    | ⟨ns, .ok r⟩ =>
      match h.add r with
      | (_, more, some f) => ⟨ns ++ more, .error f⟩
      | (next, more, none) => Traced.after (ns ++ more) (fileAll place next rest)

def discoveredNotice (count : Nat) (dir : Path) : Notice :=
  .log .debug .metadata
    ("Discovered " ++ toString count ++ " templates under " ++ dir.display)

def generatedNotice (m : Manifest) : Notice :=
  .log .info .metadata
    ("Generated metadata with " ++ toString m.parts.length ++ " parts, " ++
      toString m.componentCount ++ " components, " ++ toString m.templateCount ++ " templates")

def build (s : Settings) (place : List Name) (templates : List Template) :
    Traced Failure Generated :=
  let filed := fileAll place (Hierarchy.start s.exitOnError) templates
  match filed.result with
  | .error f => ⟨filed.notices, .error f⟩
  | .ok h =>
    let m := h.finish
    ⟨filed.notices ++ [generatedNotice m], .ok ⟨m, m.render s.format, h.errorCount⟩⟩

def generate (fs : FileSystem) (s : Settings) : Traced Failure Generated :=
  match locate fs s.referenceDir with
  | .error f => .error f
  | .ok place =>
    let base := Path.ofRoot place
    match Discovery.discover fs base s.excludes (canonicalSkips fs s.skipPaths) with
    | ⟨ns, .error f⟩ => ⟨ns ++ [.fatal f.message], .error f⟩
    | ⟨ns, .ok templates⟩ =>
      Traced.after (ns ++ [discoveredNotice templates.length base]) (build s place templates)

end Generation
end RefManifest
