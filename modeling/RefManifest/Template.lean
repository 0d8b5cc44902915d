import RefManifest.Directive
import RefManifest.Failure
import RefManifest.Notice
import RefManifest.Path
import RefManifest.Text.Line

/-!
# RefManifest.Template

The directives of one template. The first name of each kind stays, the component flags record
every declaration, and a contradiction is told as a warning.
-/

namespace RefManifest

structure Directives where
  part : Option String := none
  component : Option String := none
  componentRequired : Bool := false
  componentOptional : Bool := false
  lastComponentRequirement : Option Requirement := none
  templateRequirement : Option Requirement := none
deriving Repr, DecidableEq, Inhabited

namespace Directives

def isEmpty (d : Directives) : Bool := d == {}

def componentRequirement (d : Directives) : Option Requirement :=
  Requirement.merge (if d.componentRequired then some .required else none)
    (if d.componentOptional then some .optional else none)

def warning (message : String) : Notice := .log .warn .metadata message

/-- Keeps the name that came first and warns of a different one. -/
def keepFirst (path : String) (axis : NameAxis) (slot : Option String) (name : String) :
    Option String × List Notice :=
  match slot with
  | none => (some name, [])
  | some kept =>
    if kept = name then (some kept, [])
    else
      (some kept, [warning ("Template " ++ path ++ " declares " ++ axis.label ++ " '" ++ kept ++
        "' and later '" ++ name ++ "'; keeping '" ++ kept ++ "'")])

/-- Takes one more directive of the template at `path` in. -/
def apply (path : String) (d : Directives) : Directive → Directives × List Notice
  | .part name =>
    let (slot, ns) := keepFirst path .part d.part name
    ({ d with part := slot }, ns)
  | .component name =>
    let (slot, ns) := keepFirst path .component d.component name
    ({ d with component := slot }, ns)
  | .componentRequirement .required =>
    ({ d with componentRequired := true, lastComponentRequirement := some .required }, [])
  | .componentRequirement .optional =>
    ({ d with componentOptional := true, lastComponentRequirement := some .optional }, [])
  | .templateRequirement r =>
    let ns := match d.templateRequirement with
      | none => []
      | some current =>
        if current = r then []
        else
          [warning ("Template " ++ path ++
            " is marked both required and optional; treating it as required")]
    ({ d with templateRequirement := Requirement.merge d.templateRequirement (some r) }, ns)

def applyAll (path : String) : Directives → List Directive → Directives × List Notice
  | d, [] => (d, [])
  | d, x :: xs =>
    let (d, ns) := d.apply path x
    let (d, more) := applyAll path d xs
    (d, ns ++ more)

/-- The directives on the lines of a text, in order. -/
def lineDirectives (content : List Char) : List Directive :=
  (Text.lines content).filterMap Directive.parseLine

/-- The directives of the template at `path` with that content, and the warnings. -/
def extract (path : Path) (content : List Char) : Directives × List Notice :=
  applyAll path.display {} (lineDirectives content)

end Directives
end RefManifest
