import RefManifest.Log
import RefManifest.Run

/-!
# RefManifest.Main

The command line program. It reads the part of the disk that a run can look at into a file tree,
runs the command on that tree, prints what there is to print and stores what has changed.
-/

namespace RefManifest
namespace Main

open Disk

def pathText (place : List String) : String := "/" ++ "/".intercalate place

def octets (place : List String) : List Name := place.map Text.toOctets

def dirEntry (place : List String) (name : String) : IO.FS.DirEntry :=
  { root := pathText place, fileName := name }

/-- The kind of an entry, links not followed. -/
def kindOf (e : IO.FS.DirEntry) : IO (Option IO.FS.FileType) := do
  try
    let m ← e.path.symlinkMetadata
    return some m.type
  catch _ => return none

/-- The names that lead to where a link ends, if it ends anywhere. -/
def linkEnd (e : IO.FS.DirEntry) : IO (Option (List String)) := do
  try
    let p ← IO.FS.realPath e.path
    return some ((p.toString.splitOn "/").filter fun s => s != "")
  catch _ => return none

/-- A link that leads where `place` says, or nowhere. -/
def linkNode (place : Option (List String)) : Node :=
  match place with
  | some names => .link (Path.ofString (pathText names))
  | none => .link ⟨[Path.slash, 0xFF]⟩

def readOctets (e : IO.FS.DirEntry) : IO Text.Octets := do
  let bytes ← IO.FS.readBinFile e.path
  return bytes.toList

/-- Everything at and below an entry; what is neither file, directory nor link is left out. -/
partial def loadTree (place : List String) (name : String) : IO (Option Node) := do
  let e := dirEntry place name
  match ← kindOf e with
  | some .dir =>
    let mut entries := #[]
    for child in ← e.path.readDir do
      match ← loadTree (place ++ [name]) child.fileName with
      | some x => entries := entries.push (Text.toOctets child.fileName, x)
      | none => pure ()
    return some (.dir entries.toList)
  | some .file => return some (.file (← readOctets e))
  | some .symlink => return some (linkNode (← linkEnd e))
  | _ => return none

/-- Adds to the tree what a path from `place` runs through. -/
partial def loadAlong (root : Node) (place : List String) : List String → IO Node
  | [] => return root
  | step :: rest =>
    if step = "" ∨ step = "." then loadAlong root place rest
    else if step = ".." then loadAlong root place.dropLast rest
    else do
      let e := dirEntry place step
      let set (x : Node) : Node :=
        root.editDir (Node.setEntry (Text.toOctets step) x) (octets place)
      match ← kindOf e with
      | some .dir =>
        let next := place ++ [step]
        match root.get? (octets next) with
        | some (.dir _) => loadAlong root next rest
        | _ => loadAlong (set (.dir [])) next rest
      | some .file => return set (.file (← readOctets e))
      | some .symlink =>
        match ← linkEnd e with
        | some names =>
          let led ← loadAlong (set (linkNode (some names))) [] names
          loadAlong led names rest
        | none => return set (linkNode none)
      | _ => return root

def loadPath (fs : FileSystem) (here : List String) (p : Path) : IO FileSystem := do
  let start := if p.isAbsolute then [] else here
  let root ← loadAlong fs.root start (p.display.splitOn "/")
  return { fs with root := root }

def loadPaths (fs : FileSystem) (here : List String) : List Path → IO FileSystem
  | [] => return fs
  | p :: rest => do loadPaths (← loadPath fs here p) here rest

/-- Adds the tree below the directory that `p` leads to. -/
def loadBelow (fs : FileSystem) (p : Path) : IO FileSystem := do
  match fs.canonical? p with
  | none => return fs
  | some place =>
    let names := place.map Text.ofOctets
    match names.getLast?, place.getLast? with
    | some last, some n =>
      match ← loadTree names.dropLast last with
      | some x => return fs.editDir place.dropLast (Node.setEntry n x)
      | none => return fs
    | _, _ => return fs

/-- The part of the disk that the invocation can look at. -/
def load (i : Invocation) : IO FileSystem := do
  let cwd ← IO.FS.realPath (← IO.currentDir)
  let here := (cwd.toString.splitOn "/").filter fun s => s != ""
  let fs ← loadPath ⟨.dir [], octets here⟩ here (Path.ofString (pathText here))
  let fs ← loadPaths fs here i.config.toList
  let config :=
    match i.config with
    | none => {}
    | some file =>
      match (Config.load fs file).result with
      | .ok c => c
      | .error _ => {}
  match i.command.args.resolve config i.config with
  | .error _ => return fs
  | .ok p => do
    let fs ← loadPath fs here p.settings.referenceDir
    let fs ← loadBelow fs p.settings.referenceDir
    loadPaths fs here p.settings.skipPaths

/-- Writes a file beside its place and moves it there. -/
def storeFile (place : List String) (name : String) (content : Text.Octets) : IO Unit := do
  let stamp ← IO.monoNanosNow
  let temporary := dirEntry place (".ccmeta-" ++ toString stamp ++ ".tmp")
  IO.FS.writeBinFile temporary.path (ByteArray.mk content.toArray)
  IO.FS.rename temporary.path (dirEntry place name).path

/-- Makes the directories and writes the files in which `new` differs from `old`. -/
partial def store (place : List String) (old new : List (Name × Node)) : IO Unit := do
  for (n, x) in new do
    let name := Text.ofOctets n
    match x, old.lookup n with
    | .dir es, some (.dir before) => store (place ++ [name]) before es
    | .dir es, _ =>
      IO.FS.createDir (dirEntry place name).path
      store (place ++ [name]) [] es
    | .file c, some (.file before) => if c != before then storeFile place name c
    | .file c, _ => storeFile place name c
    | .link _, _ => pure ()

/-! ## The program -/

/-- The variables that a run looks at. -/
def variableNames : List String :=
  ["CCMETA_REFERENCE_DIR", "CCMETA_OUTPUT", "CCMETA_EXIT_ON_ERROR", "CCMETA_CONFIG"]

def readEnvironment : IO Environment := do
  let mut env := []
  for name in variableNames do
    match ← IO.getEnv name with
    | some value => env := env ++ [(name, value)]
    | none => pure ()
  return env

def complain (text : String) : IO Unit := do (← IO.getStderr).putStr text

/-- Answers a command line that does not lead to a run. -/
def refuse (e : CommandLine.UsageError) : IO UInt32 := do
  match e with
  | .versionAsked => IO.print CommandLine.versionText
  | .helpAsked => IO.print CommandLine.helpText
  | .nothingGiven => complain CommandLine.helpText
  | e => complain ("error: " ++ e.message ++ "\n")
  return UInt32.ofNat e.exitCode

def execute (i : Invocation) : IO UInt32 := do
  let fs ← load i
  let o := i.run fs
  let filter := Log.Filter.choose (← IO.getEnv "RUST_LOG") i.logLevel
  store [] fs.root.entries o.disk.root.entries
  complain (Log.text filter o.notices)
  IO.print o.stdout
  match o.trouble with
  | some t => complain (Report.ofTrouble t).lines
  | none => pure ()
  return UInt32.ofNat o.exitCode

def run (words : List String) : IO UInt32 := do
  match CommandLine.parse (← readEnvironment) words with
  | .error e => refuse e
  | .ok i =>
    try execute i
    catch e =>
      complain (Report.bare (.other e.toString)).lines
      return 1

end Main
end RefManifest

def main (words : List String) : IO UInt32 := RefManifest.Main.run words
