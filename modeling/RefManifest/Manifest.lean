import RefManifest.Requirement

/-!
# RefManifest.Manifest

The manifest: parts hold components, and a component lists the templates that have to be there
and those that may be. Everything is kept in the order in which it was stored.
-/

namespace RefManifest

structure Component where
  name : String
  requirement : Requirement
  requiredTemplates : List String
  optionalTemplates : List String
deriving Repr, DecidableEq, Inhabited

structure Part where
  name : String
  components : List Component
deriving Repr, DecidableEq, Inhabited

structure Manifest where
  apiVersion : String
  parts : List Part
deriving Repr, DecidableEq, Inhabited

namespace Component

/-- The paths of all templates, the required ones first. -/
def templatePaths (c : Component) : List String := c.requiredTemplates ++ c.optionalTemplates

end Component

namespace Part

def component? (p : Part) (name : String) : Option Component :=
  p.components.find? fun c => c.name == name

end Part

namespace Manifest

def version : String := "v1"

def ofParts (parts : List Part) : Manifest := ⟨version, parts⟩

def part? (m : Manifest) (name : String) : Option Part := m.parts.find? fun p => p.name == name

def components (m : Manifest) : List Component := m.parts.flatMap (·.components)

def componentCount (m : Manifest) : Nat := m.components.length

def templatePaths (m : Manifest) : List String := m.components.flatMap (·.templatePaths)

def templateCount (m : Manifest) : Nat := m.templatePaths.length

end Manifest
end RefManifest
