import RefManifest.Outline
import RefManifest.Yaml.Scalar

/-!
# RefManifest.Yaml.Print

The printed form of YAML in block style. Names are indented by two spaces for each record around
them, and the dash of a record stands at the indentation of the name it belongs to.
-/

namespace RefManifest
namespace Yaml

/-- Ends the line, unless its text has done so. -/
def endLine (s : List Char) : List Char :=
  match s.getLast? with
  | some c => if isBreak c then s else s ++ ['\n']
  | none => ['\n']

mutual

/-- A value after its name. -/
def printValue (indent : Nat) : Outline → List Char
  | .text s => endLine (' ' :: scalar (indent + 2) s)
  | .records [] => " []\n".toList
  | .records (r :: rs) => '\n' :: printRecords indent (r :: rs)

def printRecords (indent : Nat) : List Outline.Fields → List Char
  | [] => []
  | r :: rs => spaces indent ++ '-' :: ' ' :: printRecord (indent + 2) r ++ printRecords indent rs

/-- A record from its first name on. -/
def printRecord (indent : Nat) : Outline.Fields → List Char
  | [] => ['\x7b', '\x7d', '\n']
  | [f] => printField indent f
  | f :: f' :: fs => printField indent f ++ spaces indent ++ printRecord indent (f' :: fs)

def printField (indent : Nat) : String × Outline → List Char
  | (name, x) => name.toList ++ ':' :: printValue indent x

end

def print (fields : Outline.Fields) : List Char := printRecord 0 fields

end Yaml
end RefManifest
