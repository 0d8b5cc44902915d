/-!
# RefManifest.CommandLine.Flag

The flags of the command line: their names, what value they take, and which of them belong to
which command. The global ones may stand before the command as well as after it.
-/

namespace RefManifest
namespace CommandLine

inductive Flag where
  | referenceDir
  | output
  | exitOnError
  | format
  | exclude
  | stdout
  | verbose
  | quiet
  | config
  | help
  | version
deriving Repr, DecidableEq

/-- What follows a flag. -/
inductive Operand where
  | none
  | optional
  | needed
deriving Repr, DecidableEq

namespace Flag

def longName : Flag → String
  | referenceDir => "reference-dir"
  | output => "output"
  | exitOnError => "exit-on-error"
  | format => "format"
  | exclude => "exclude"
  | stdout => "stdout"
  | verbose => "verbose"
  | quiet => "quiet"
  | config => "config"
  | help => "help"
  | version => "version"

def shortName : Flag → Option Char
  | referenceDir => some 'r'
  | output => some 'o'
  | exclude => some 'e'
  | verbose => some 'v'
  | quiet => some 'q'
  | config => some 'c'
  | help => some 'h'
  | version => some 'V'
  | exitOnError | format | stdout => Option.none

def operand : Flag → Operand
  | referenceDir | output | format | exclude | config => .needed
  | exitOnError => .optional
  | stdout | verbose | quiet | help | version => .none

/-- The environment variable that stands in for the flag when it is not given. -/
def variableName : Flag → Option String
  | referenceDir => some "CCMETA_REFERENCE_DIR"
  | output => some "CCMETA_OUTPUT"
  | exitOnError => some "CCMETA_EXIT_ON_ERROR"
  | config => some "CCMETA_CONFIG"
  | _ => Option.none

end Flag

/-- The flags that are known at one place of the command line, and whether a command may follow
there. -/
structure Scope where
  flags : List Flag
  commands : Bool
deriving Repr, DecidableEq

namespace Scope

def globals : List Flag := [.verbose, .quiet, .config]

def reference : List Flag := [.referenceDir, .output, .exitOnError, .format, .exclude]

/-- Before the command. -/
def top : Scope := ⟨globals ++ [.help, .version], true⟩

def generate : Scope := ⟨reference ++ [.stdout] ++ globals ++ [.help], false⟩

def check : Scope := ⟨reference ++ globals ++ [.help], false⟩

/-- The flags of `generate` on their own. -/
def generateOnly : Scope := ⟨reference ++ [.stdout, .help], false⟩

def long? (l : Scope) (name : String) : Option Flag :=
  l.flags.find? fun f => f.longName == name

def short? (l : Scope) (c : Char) : Option Flag :=
  l.flags.find? fun f => f.shortName == some c

end Scope

/-- Why a command line does not lead to a run. -/
inductive UsageError where
  | invalidValue
  | tooManyValues
  | unknownArgument
  | argumentConflict
  | invalidSubcommand
  | missingSubcommand
  | nothingGiven
  | helpAsked
  | versionAsked
deriving Repr, DecidableEq

namespace UsageError

/-- Asking for help or the version is no mistake. -/
def exitCode : UsageError → Nat
  | helpAsked | versionAsked => 0
  | _ => 2

def message : UsageError → String
  | invalidValue => "a value is missing or invalid"
  | tooManyValues => "a value is given to a flag that takes none"
  | unknownArgument => "unexpected argument"
  | argumentConflict => "a flag is repeated or contradicts another one"
  | invalidSubcommand => "unrecognized command"
  | missingSubcommand => "a command is required"
  | nothingGiven => "nothing to do"
  | helpAsked => "help is asked for"
  | versionAsked => "the version is asked for"

end UsageError
end CommandLine
end RefManifest
