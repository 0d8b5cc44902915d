import RefManifest.Json.Print
import RefManifest.Manifest.Outline
import RefManifest.Yaml.Print

/-!
# RefManifest.Render

The text of a manifest in one of the two output formats. It ends with a line feed.
-/

namespace RefManifest

inductive Format where
  | yaml
  | json
deriving Repr, DecidableEq, Inhabited

namespace Format

def label : Format → String
  | yaml => "yaml"
  | json => "json"

def ofLabel? (s : String) : Option Format :=
  if s = "yaml" then some yaml
  else if s = "json" then some json
  else none

/-- The name of the manifest file if no other is asked for. -/
def fileName : Format → String
  | yaml => "metadata.yml"
  | json => "metadata.json"

end Format

def withLineFeed (s : List Char) : List Char :=
  if s.getLast? = some '\n' then s else s ++ ['\n']

def Manifest.rendered (m : Manifest) : Format → List Char
  | .yaml => withLineFeed (Yaml.print m.outline)
  | .json => withLineFeed (Json.print m.outline)

def Manifest.render (m : Manifest) (format : Format) : String := String.ofList (m.rendered format)

end RefManifest
