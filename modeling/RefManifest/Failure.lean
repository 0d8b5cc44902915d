/-!
# RefManifest.Failure

Everything that can end a run, as causes. `message` gives each cause its text.
-/

namespace RefManifest

/-- The two names that a template is filed under. -/
inductive NameAxis where
  | part
  | component
deriving Repr, DecidableEq

def NameAxis.label : NameAxis → String
  | .part => "part"
  | .component => "component"

/-- The directory that supplies the name when no directive does. -/
def NameAxis.ancestor : NameAxis → String
  | .part => "grandparent"
  | .component => "parent"

inductive Failure where
  | referenceDirNotFound (path : String)
  | directoryWalk (path reason : String)
  | templateRead (path reason : String)
  | unresolvableName (path axis ancestor : String)
  | conflictingStatus (part component : String)
  | invalidExcludePattern (pattern reason : String)
  | directivePattern (reason : String)
  | configParse (file reason : String)
  | serialization (format reason : String)
  | outputWrite (path reason : String)
  | outputOutOfDate (path : String)
  | other (message : String)
deriving Repr, DecidableEq

namespace Failure

/-- The template at `path` has neither a directive for the name nor the directory that would
supply it. -/
def unresolvable (path : String) (axis : NameAxis) : Failure :=
  .unresolvableName path axis.label axis.ancestor

def message : Failure → String
  | referenceDirNotFound path => "Reference directory not found: " ++ path
  | directoryWalk path reason =>
    "Failed to walk reference directory at " ++ path ++ ": " ++ reason
  | templateRead path reason => "Failed to read template " ++ path ++ ": " ++ reason
  | unresolvableName path axis ancestor =>
    "Cannot derive " ++ axis ++ " name for template " ++ path ++
      ": no directive and no " ++ ancestor ++ " directory"
  | conflictingStatus part component =>
    "conflicting component required status for component '" ++ component ++ "' in part '" ++
      part ++ "'"
  | invalidExcludePattern pattern reason =>
    "Invalid exclude pattern '" ++ pattern ++ "': " ++ reason
  | directivePattern reason => "Invalid directive pattern: " ++ reason
  | configParse file reason => "Invalid configuration file " ++ file ++ ": " ++ reason
  | serialization format reason =>
    "Failed to serialize manifest as " ++ format ++ ": " ++ reason
  | outputWrite path reason => "Failed to write manifest to " ++ path ++ ": " ++ reason
  | outputOutOfDate path => "Manifest " ++ path ++ " is out of date"
  | other message => message

def isConflict : Failure → Bool
  | conflictingStatus _ _ => true
  | _ => false

end Failure
end RefManifest
