import RefManifest.CommandLine.Invocation
import RefManifest.Config
import RefManifest.Excludes

/-!
# RefManifest.Settings

What a run works with. The command line decides before the configuration file, and that before
the defaults; exclude patterns of both apply. The manifest, both of its default names and the
configuration file are never templates.
-/

namespace RefManifest

structure Settings where
  referenceDir : Path
  exitOnError : Bool
  format : Format
  excludes : Excludes
  skipPaths : List Path
deriving Repr, DecidableEq, Inhabited

/-- Settings with the path that the manifest is written to. -/
structure Plan where
  settings : Settings
  output : Path
deriving Repr, DecidableEq, Inhabited

/-- The manifest of that format in the reference directory. -/
def defaultOutput (referenceDir : Path) (format : Format) : Path :=
  referenceDir.join (Path.ofString format.fileName)

namespace ReferenceArgs

def chosenFormat (args : ReferenceArgs) (config : Config) : Format :=
  (args.format <|> config.format).getD .yaml

def chosenOutput (args : ReferenceArgs) (config : Config) : Path :=
  (args.output <|> config.output).getD
    (defaultOutput args.referenceDir (args.chosenFormat config))

def chosenExitOnError (args : ReferenceArgs) (config : Config) : Bool :=
  (args.exitOnError <|> config.exitOnError).getD false

/-- The patterns of the file come before those of the command line. -/
def allPatterns (args : ReferenceArgs) (config : Config) : List String :=
  config.exclude ++ args.excludes

/-- Combines the command line with the configuration that was loaded from `configPath`. -/
def resolve (args : ReferenceArgs) (config : Config) (configPath : Option Path) :
    Except Failure Plan :=
  match Excludes.ofPatterns (args.allPatterns config) with
  | .error f => .error f
  | .ok excludes =>
    let output := args.chosenOutput config
    .ok
      { settings :=
          { referenceDir := args.referenceDir
            exitOnError := args.chosenExitOnError config
            format := args.chosenFormat config
            excludes := excludes
            skipPaths :=
              [output, defaultOutput args.referenceDir .yaml,
                defaultOutput args.referenceDir .json] ++ configPath.toList }
        output := output }

end ReferenceArgs
end RefManifest
