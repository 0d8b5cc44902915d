import RefManifest.CommandLine.Options

/-!
# RefManifest.CommandLine.Scan

Reading the words of one scope of the command line. A flag whose value has not been seen yet
stays pending; it is settled when the next flag comes or the words end. A word that starts with
a dash is never taken for a value.
-/

namespace RefManifest
namespace CommandLine

/-- A flag that is not settled: its value if it has come, and whether one may still come. -/
structure Pending where
  flag : Flag
  value : Option String
  awaiting : Bool
deriving Repr, DecidableEq

structure Scan where
  options : Options
  pending : Option Pending
deriving Repr, DecidableEq

def commandNames : List String := ["generate", "check", "help"]

/-- How a word is spelled. -/
inductive Word where
  | plain
  | long (name : String) (value : Option String)
  | short (letters : List Char)
deriving Repr, DecidableEq

def Word.of (s : String) : Word :=
  match s.toList with
  | '-' :: '-' :: rest =>
    let name := String.ofList (rest.takeWhile fun c => c != '=')
    match rest.dropWhile fun c => c != '=' with
    | [] => .long name none
    | _ :: value => .long name (some (String.ofList value))
  | '-' :: c :: rest => .short (c :: rest)
  | _ => .plain

namespace Scan

def start : Scan := ⟨{}, none⟩

def awaiting (s : Scan) : Bool :=
  match s.pending with
  | some p => p.awaiting
  | none => false

/-- Takes the pending flag in. A value that is optional counts as `true` when it is missing. -/
def settle (s : Scan) : Except UsageError Options :=
  match s.pending with
  | none => .ok s.options
  | some p =>
    match p.value, p.flag.operand with
    | some v, _ => s.options.give p.flag v
    | none, .needed => .error .invalidValue
    | none, _ => s.options.give p.flag "true"

/-- A flag with its value, or one that takes none. -/
def giveNow (s : Scan) (f : Flag) (v : String) : Except UsageError Scan :=
  match s.settle with
  | .error e => .error e
  | .ok o =>
    match o.give f v with
    | .error e => .error e
    | .ok o => .ok ⟨o, none⟩

/-- A flag whose value may come as the next word. -/
def suspend (s : Scan) (f : Flag) : Except UsageError Scan :=
  match s.settle with
  | .error e => .error e
  | .ok o => .ok ⟨o, some ⟨f, none, true⟩⟩

def takeLong (scope : Scope) (s : Scan) (name : String) (value : Option String) :
    Except UsageError Scan :=
  match scope.long? name with
  | none => .error .unknownArgument
  | some f =>
    match f.operand, value with
    | .none, some _ => .error .tooManyValues
    | .none, none => s.giveNow f ""
    | _, some v => s.giveNow f v
    | _, none => s.suspend f

/-- The value that is written right after a letter. -/
def attached : List Char → String
  | '=' :: rest => String.ofList rest
  | rest => String.ofList rest

def takeShort (scope : Scope) (s : Scan) : List Char → Except UsageError Scan
  | [] => .ok s
  | c :: rest =>
    match scope.short? c with
    | none => .error .unknownArgument
    | some f =>
      match f.operand with
      | .none =>
        match s.giveNow f "" with
        | .error e => .error e
        | .ok s => takeShort scope s rest
      | _ => if rest.isEmpty then s.suspend f else s.giveNow f (attached rest)

/-- A word that no flag takes. -/
def stray (scope : Scope) : UsageError :=
  if scope.commands then .invalidSubcommand else .unknownArgument

/-- A word after `--`. -/
def strayBehind (scope : Scope) (word : String) : UsageError :=
  if scope.commands ∧ word ∉ commandNames then .invalidSubcommand else .unknownArgument

def takePlain (scope : Scope) (s : Scan) (word : String) : Except UsageError Scan :=
  match s.pending with
  | some p =>
    if p.awaiting then .ok { s with pending := some ⟨p.flag, some word, false⟩ }
    else .error (stray scope)
  | none => .error (stray scope)

/-- Reads the words of a scope up to a command, whose name comes with the words after it. -/
def run (scope : Scope) (s : Scan) :
    List String → Except UsageError (Scan × Option (String × List String))
  | [] => .ok (s, none)
  | word :: rest =>
    if scope.commands ∧ s.awaiting = false ∧ word ∈ commandNames then .ok (s, some (word, rest))
    else if word = "--" then
      match rest with
      | [] => .ok (s, none)
      | w :: _ => .error (strayBehind scope w)
    else
      let next :=
        match Word.of word with
        | .long name value => takeLong scope s name value
        | .short letters => takeShort scope s letters
        | .plain => takePlain scope s word
      match next with
      | .error e => .error e
      | .ok s => run scope s rest

end Scan
end CommandLine
end RefManifest
