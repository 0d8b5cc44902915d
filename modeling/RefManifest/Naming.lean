import RefManifest.Failure
import RefManifest.Path

/-!
# RefManifest.Naming

The part and the component that a template is filed under. A directive decides; without one the
component is named after the directory that holds the template and the part after the one above.
Only the path that is given is looked at.
-/

namespace RefManifest

structure Names where
  part : String
  component : String
deriving Repr, DecidableEq

namespace Names

/-- The last component of a directory as text, if it is a name. -/
def ofDir? (dir : Option Path) : Option String := (dir.bind Path.fileName?).map Text.ofOctets

/-- The component is looked for first. -/
def resolve (path : Path) (part component : Option String) : Except Failure Names :=
  let parent := path.parent?
  match component <|> ofDir? parent with
  | none => .error (.unresolvable path.display .component)
  | some c =>
    match part <|> ofDir? (parent.bind Path.parent?) with
    | none => .error (.unresolvable path.display .part)
    | some p => .ok ⟨p, c⟩

end Names
end RefManifest
