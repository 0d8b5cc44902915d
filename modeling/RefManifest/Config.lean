import RefManifest.Disk.Resolve
import RefManifest.Failure
import RefManifest.Notice
import RefManifest.Render
import RefManifest.Text.Quoted
import RefManifest.Toml.Reader

/-!
# RefManifest.Config

The configuration file. Its table may hold four keys and no others; keys are looked at in the
order of their octets, and the first that is unknown or holds the wrong kind of value is the
fault. A relative output path is meant from the directory of the file.
-/

namespace RefManifest

open Toml

structure Config where
  exclude : List String := []
  exitOnError : Option Bool := none
  output : Option Path := none
  format : Option Format := none
deriving Repr, DecidableEq, Inhabited

namespace Config

/-- What the value is, in a message. -/
def found : Value → String
  | .string s => "string " ++ Text.quoted (String.ofList s)
  | .integer n => "integer `" ++ toString n ++ "`"
  | .float x => "floating point `" ++ String.ofList x.plainText ++ "`"
  | .boolean true => "boolean `true`"
  | .boolean false => "boolean `false`"
  | .datetime => "map"
  | .array _ => "sequence"
  | .table _ => "map"

def unexpected (expected : String) (v : Value) : String :=
  "invalid type: " ++ found v ++ ", expected " ++ expected

def readString (expected : String) : Value → Except String String
  | .string s => .ok (String.ofList s)
  | v => .error (unexpected expected v)

def readBool : Value → Except String Bool
  | .boolean b => .ok b
  | v => .error (unexpected "a boolean" v)

def readStrings : List Value → Except String (List String)
  | [] => .ok []
  | v :: rest =>
    match readString "a string" v with
    | .error e => .error e
    | .ok s =>
      match readStrings rest with
      | .error e => .error e
      | .ok ss => .ok (s :: ss)

def readList : Value → Except String (List String)
  | .array items => readStrings items
  | v => .error (unexpected "a sequence" v)

def readFormatName (s : List Char) : Except String Format :=
  match Format.ofLabel? (String.ofList s) with
  | some f => .ok f
  | none =>
    .error ("unknown variant `" ++ String.ofList s ++ "`, expected `yaml` or `json`")

/-- Why the value under the name of a format is refused; it has to be empty. -/
def notEmpty? : Value → Option String
  | .table [] => none
  | .table _ => some "expected empty table"
  | .array [] => none
  | .array _ => some "expected empty array"
  | .string _ => some "expected table, found string"
  | .integer _ => some "expected table, found integer"
  | .float _ => some "expected table, found float"
  | .boolean _ => some "expected table, found boolean"
  | .datetime => some "expected table, found datetime"

/-- A format is its name, or a table that holds something empty under the name. -/
def readFormat : Value → Except String Format
  | .string s => readFormatName s
  | .table [] => .error "wanted exactly 1 element, found 0 elements"
  | .table [(name, v)] =>
    match readFormatName name with
    | .error e => .error e
    | .ok f =>
      match notEmpty? v with
      | some e => .error e
      | none => .ok f
  | .table (_ :: _ :: _) => .error "wanted exactly 1 element, more than 1 element"
  | _ => .error "wanted string or table"

/-- Takes one key in. -/
def setField (c : Config) (name : String) (v : Value) : Except String Config :=
  if name = "exclude" then (readList v).map fun x => { c with exclude := x }
  else if name = "exit-on-error" then (readBool v).map fun x => { c with exitOnError := some x }
  else if name = "output" then
    (readString "path string" v).map fun x => { c with output := some (Path.ofString x) }
  else if name = "format" then (readFormat v).map fun x => { c with format := some x }
  else
    .error ("unknown field `" ++ name ++
      "`, expected one of `exclude`, `exit-on-error`, `output`, `format`")

def setFields (c : Config) : Table → Except String Config
  | [] => .ok c
  | (name, v) :: rest =>
    match setField c (String.ofList name) v with
    | .error e => .error e
    | .ok c => setFields c rest

/-- The order of the octets of two texts is that of their characters. -/
def keyLe : List Char → List Char → Bool
  | [], _ => true
  | _ :: _, [] => false
  | a :: as, b :: bs => a < b || (a == b && keyLe as bs)

def sortKeys (t : Table) : Table := t.mergeSort fun a b => keyLe a.1 b.1

def ofTable (t : Table) : Except String Config := setFields {} (sortKeys t)

def unreadable : String := "<toml syntax>"

/-- The configuration that a text holds; `file` is only named in the failure. -/
def ofText (file : Path) (text : List Char) : Except Failure Config :=
  match Toml.parse? text with
  | none => .error (.configParse file.display unreadable)
  | some t =>
    match ofTable t with
    | .error reason => .error (.configParse file.display reason)
    | .ok c => .ok c

/-- The output path as it is meant in the configuration at `file`. -/
def outputFrom (file output : Path) : Path :=
  match file.parent? with
  | some dir => if output.isAbsolute then output else dir.join output
  | none => output

def loadedNotice (file : Path) : Notice :=
  .log .debug .config ("Loaded configuration from " ++ file.display)

def load (fs : FileSystem) (file : Path) : Traced Failure Config :=
  match fs.readText file with
  | .error fault => .error (.configParse file.display fault.message)
  | .ok text =>
    match ofText file text.toList with
    | .error f => .error f
    | .ok c => ⟨[loadedNotice file], .ok { c with output := c.output.map (outputFrom file) }⟩

end Config
end RefManifest
