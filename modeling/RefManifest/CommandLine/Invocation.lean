import RefManifest.CommandLine.Scan
import RefManifest.Notice

/-!
# RefManifest.CommandLine.Invocation

The whole command line: global flags, a command and its flags. The words after the command are
judged first. A global flag given after the command wins over one given before it, and both win
over the environment.
-/

namespace RefManifest

/-- Where the templates are and where the manifest goes, as far as the command line tells. -/
structure ReferenceArgs where
  referenceDir : Path
  output : Option Path
  exitOnError : Option Bool
  format : Option Format
  excludes : List String
deriving Repr, DecidableEq, Inhabited

inductive Command where
  | generate (args : ReferenceArgs) (stdout : Bool)
  | check (args : ReferenceArgs)
deriving Repr, DecidableEq

namespace Command

def args : Command → ReferenceArgs
  | generate a _ => a
  | check a => a

end Command

structure Invocation where
  verbose : Bool
  quiet : Bool
  config : Option Path
  command : Command
deriving Repr, DecidableEq

namespace Invocation

/-- The least urgent level that is logged. -/
def logLevel (i : Invocation) : Level :=
  if i.verbose then .debug else if i.quiet then .error else .info

end Invocation

namespace CommandLine

def defaultReferenceDir : Path := Path.ofString "."

def Options.referenceArgs (o : Options) : ReferenceArgs :=
  ⟨o.referenceDir.getD defaultReferenceDir, o.output, o.exitOnError, o.format, o.excludes⟩

/-- What is left to do when the words of a scope have ended. -/
def finish (env : Environment) (scope : Scope) (s : Scan) : Except UsageError Options :=
  match s.settle with
  | .error e => .error e
  | .ok o => o.fillAll env scope.flags

/-- More output and less output are not asked for at the same place. -/
def consistent (o : Options) : Except UsageError Options :=
  if o.verbose && o.quiet then .error .argumentConflict else .ok o

/-- Reads all words as flags of one scope, with what the environment adds. The second result is
the flags without that. -/
def readScope (env : Environment) (scope : Scope) (words : List String) :
    Except UsageError (Options × Options) :=
  match Scan.run scope Scan.start words with
  | .error e => .error e
  | .ok (s, _) =>
    match s.settle with
    | .error e => .error e
    | .ok given =>
      match finish env scope s with
      | .error e => .error e
      | .ok o =>
        match consistent o with
        | .error e => .error e
        | .ok o => .ok (o, given)

/-- The flags of `generate` without a command in front. -/
def parseGenerateFlags (env : Environment) (words : List String) :
    Except UsageError (ReferenceArgs × Bool) :=
  match readScope env .generateOnly words with
  | .error e => .error e
  | .ok (o, _) => .ok (o.referenceArgs, o.stdout)

/-- Help on a command: the words have to name one. -/
def helpOn : List String → UsageError
  | [] => .helpAsked
  | [word] => if word ∈ commandNames then .helpAsked else .invalidSubcommand
  | _ => .invalidSubcommand

def readCommand (env : Environment) (name : String) (words : List String) :
    Except UsageError (Options × Options × Command) :=
  if name = "generate" then
    match readScope env .generate words with
    | .error e => .error e
    | .ok (o, given) => .ok (o, given, .generate o.referenceArgs o.stdout)
  else if name = "check" then
    match readScope env .check words with
    | .error e => .error e
    | .ok (o, given) => .ok (o, given, .check o.referenceArgs)
  else .error (helpOn words)

def withoutCommand (o : Options) : UsageError :=
  if o = {} then .nothingGiven else .missingSubcommand

def parse (env : Environment) (words : List String) : Except UsageError Invocation :=
  match Scan.run .top Scan.start words with
  | .error e => .error e
  | .ok (s, none) =>
    match finish env .top s with
    | .error e => .error e
    | .ok o => .error (withoutCommand o)
  | .ok (s, some (name, rest)) =>
    match readCommand env name rest with
    | .error e => .error e
    | .ok (inner, given, command) =>
      match finish env .top s with
      | .error e => .error e
      | .ok o =>
        match consistent o with
        | .error e => .error e
        | .ok outer =>
          .ok
            { verbose := outer.verbose || inner.verbose
              quiet := outer.quiet || inner.quiet
              config := given.config <|> outer.config
              command := command }

def versionText : String := "ccmeta 0.1.0\n"

def helpText : String :=
  "Generate cluster-compare metadata from annotated reference templates\n\n" ++
  "Usage: ccmeta [OPTIONS] <COMMAND>\n\n" ++
  "Commands:\n" ++
  "  generate  Generate the metadata manifest\n" ++
  "  check     Check that the manifest on disk is up to date\n" ++
  "  help      Print this message\n\n" ++
  "Options:\n" ++
  "  -v, --verbose                Enable verbose output\n" ++
  "  -q, --quiet                  Only report errors\n" ++
  "  -c, --config <CONFIG>        Path to a configuration file\n" ++
  "  -h, --help                   Print help\n" ++
  "  -V, --version                Print version\n\n" ++
  "Options of the commands:\n" ++
  "  -r, --reference-dir <DIR>    Directory holding the reference templates\n" ++
  "  -o, --output <PATH>          Manifest path\n" ++
  "      --exit-on-error [<BOOL>] Fail on the first conflicting component status\n" ++
  "      --format <FORMAT>        Manifest format: yaml or json\n" ++
  "  -e, --exclude <GLOB>         Files that are not templates; repeatable\n" ++
  "      --stdout                 Print the manifest instead of writing it (generate)\n"

end CommandLine
end RefManifest
