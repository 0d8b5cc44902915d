import RefManifest.CommandLine.Flag
import RefManifest.Path
import RefManifest.Render

/-!
# RefManifest.CommandLine.Options

The values of the flags. Taking a value in checks it; all flags but `exclude` may be given once.
An environment variable is looked at only for a flag that is not given.
-/

namespace RefManifest

/-- The variables of the environment that are set. -/
abbrev Environment := List (String × String)

namespace CommandLine

structure Options where
  referenceDir : Option Path := none
  output : Option Path := none
  exitOnError : Option Bool := none
  format : Option Format := none
  excludes : List String := []
  stdout : Bool := false
  verbose : Bool := false
  quiet : Bool := false
  config : Option Path := none
deriving Repr, DecidableEq, Inhabited

/-- A path must not be empty. -/
def readPath (s : String) : Except UsageError Path :=
  if s = "" then .error .invalidValue else .ok (Path.ofString s)

def readBool (s : String) : Except UsageError Bool :=
  if s = "true" then .ok true
  else if s = "false" then .ok false
  else .error .invalidValue

def readFormat (s : String) : Except UsageError Format :=
  match Format.ofLabel? s with
  | some f => .ok f
  | none => .error .invalidValue

namespace Options

def has (o : Options) : Flag → Bool
  | .referenceDir => o.referenceDir.isSome
  | .output => o.output.isSome
  | .exitOnError => o.exitOnError.isSome
  | .format => o.format.isSome
  | .exclude => !o.excludes.isEmpty
  | .stdout => o.stdout
  | .verbose => o.verbose
  | .quiet => o.quiet
  | .config => o.config.isSome
  | .help => false
  | .version => false

/-- Takes the value of a flag in. -/
def setValue (o : Options) (f : Flag) (s : String) : Except UsageError Options :=
  match f with
  | .referenceDir => (readPath s).map fun x => { o with referenceDir := some x }
  | .output => (readPath s).map fun x => { o with output := some x }
  | .exitOnError => (readBool s).map fun x => { o with exitOnError := some x }
  | .format => (readFormat s).map fun x => { o with format := some x }
  | .exclude => .ok { o with excludes := o.excludes ++ [s] }
  | .config => (readPath s).map fun x => { o with config := some x }
  | .stdout => .ok { o with stdout := true }
  | .verbose => .ok { o with verbose := true }
  | .quiet => .ok { o with quiet := true }
  | .help => .error .helpAsked
  | .version => .error .versionAsked

/-- Takes one occurrence of a flag in. -/
def give (o : Options) (f : Flag) (s : String) : Except UsageError Options :=
  if f ≠ .exclude ∧ o.has f = true then .error .argumentConflict else o.setValue f s

/-- Fills in the flag from its environment variable if it has not been given. -/
def fill (env : Environment) (o : Options) (f : Flag) : Except UsageError Options :=
  if o.has f then .ok o
  else
    match f.variableName.bind fun name => env.lookup name with
    | some s => o.setValue f s
    | none => .ok o

def fillAll (env : Environment) (o : Options) : List Flag → Except UsageError Options
  | [] => .ok o
  | f :: rest =>
    match o.fill env f with
    | .error e => .error e
    | .ok o => fillAll env o rest

end Options
end CommandLine
end RefManifest
