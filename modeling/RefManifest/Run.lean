import RefManifest.Disk.Write
import RefManifest.Generation
import RefManifest.Report

/-!
# RefManifest.Run

Running a command on a file system. `generate` writes or prints the manifest; `check` generates
it and compares it with the file at the output path, and changes nothing.
-/

namespace RefManifest

structure Outcome where
  disk : FileSystem
  notices : List Notice
  stdout : String
  trouble : Option Trouble
deriving Inhabited

namespace Outcome

def exitCode (o : Outcome) : Nat := if o.trouble.isSome then 1 else 0

/-- A run that ends in an error and changes nothing. -/
def failed (fs : FileSystem) (ns : List Notice) (f : Failure) : Outcome :=
  ⟨fs, ns, "", some (.failure [] f)⟩

end Outcome

namespace Run

/-- The warning after a run with conflicts. -/
def conflictNotices (topic : Topic) (ending : String) (g : Generated) : List Notice :=
  if g.hasErrors then
    [.log .warn topic
      ("Metadata generated with " ++ toString g.errorCount ++ " error(s)" ++ ending)]
  else []

def wroteNotice (output : Path) : Notice := .log .info .generate ("Wrote " ++ output.display)

def upToDateNotice (output : Path) : Notice :=
  .log .info .check (output.display ++ " is up to date")

def deliver (fs : FileSystem) (p : Plan) (stdout : Bool) (ns : List Notice) (g : Generated) :
    Outcome :=
  if stdout then ⟨fs, ns, g.rendered, none⟩
  else
    match fs.safeWrite p.output (Text.toOctets g.rendered) with
    | (written, none) => ⟨written, ns ++ [wroteNotice p.output], "", none⟩
    | (left, some fault) =>
      Outcome.failed left ns (.outputWrite p.output.display fault.message)

def compare (fs : FileSystem) (p : Plan) (ns : List Notice) (g : Generated) : Outcome :=
  let stale := Outcome.failed fs ns (.outputOutOfDate p.output.display)
  match fs.readText p.output with
  | .error .missing => stale
  | .error fault =>
    ⟨fs, ns, "", some (.text ["Failed to read " ++ p.output.display] fault.message)⟩
  | .ok text =>
    if text = g.rendered then ⟨fs, ns ++ [upToDateNotice p.output], "", none⟩ else stale

end Run

namespace Command

/-- Runs the command with the configuration that was loaded from `configPath`. -/
def run (c : Command) (fs : FileSystem) (config : Config) (configPath : Option Path) : Outcome :=
  match c.args.resolve config configPath with
  | .error f => Outcome.failed fs [] f
  | .ok p =>
    match Generation.generate fs p.settings with
    | ⟨ns, .error f⟩ => Outcome.failed fs ns f
    | ⟨ns, .ok g⟩ =>
      match c with
      | .generate _ stdout =>
        Run.deliver fs p stdout
          (ns ++ Run.conflictNotices .generate "; the manifest is best-effort" g) g
      | .check _ => Run.compare fs p (ns ++ Run.conflictNotices .check "" g) g

end Command

namespace Invocation

/-- Loads the configuration file, if one is named, and runs the command. -/
def run (i : Invocation) (fs : FileSystem) : Outcome :=
  match i.config with
  | none => i.command.run fs {} none
  | some file =>
    match Config.load fs file with
    | ⟨ns, .error f⟩ => Outcome.failed fs ns f
    | ⟨ns, .ok config⟩ =>
      let o := i.command.run fs config (some file)
      { o with notices := ns ++ o.notices }

end Invocation
end RefManifest
