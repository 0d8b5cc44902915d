import RefManifest.Manifest
import RefManifest.Outline

/-!
# RefManifest.Manifest.Outline

The manifest as named values in the order in which every format writes them. A list of templates
that is empty is left out.
-/

namespace RefManifest

def templateOutline (path : String) : Outline.Fields := [("path", .text path.toList)]

/-- The field of a list of templates, unless the list is empty. -/
def templatesOutline (name : String) (paths : List String) : Outline.Fields :=
  if paths.isEmpty then [] else [(name, .records (paths.map templateOutline))]

def Component.outline (c : Component) : Outline.Fields :=
  [("name", .text c.name.toList), ("type", .text c.requirement.label.toList)] ++
    templatesOutline "requiredTemplates" c.requiredTemplates ++
    templatesOutline "optionalTemplates" c.optionalTemplates

def Part.outline (p : Part) : Outline.Fields :=
  [("name", .text p.name.toList),
    ("components", .records (p.components.map Component.outline))]

def Manifest.outline (m : Manifest) : Outline.Fields :=
  [("apiVersion", .text m.apiVersion.toList), ("parts", .records (m.parts.map Part.outline))]

end RefManifest
