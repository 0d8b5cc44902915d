import RefManifest.Failure
import RefManifest.Manifest
import RefManifest.Notice
import RefManifest.Template

/-!
# RefManifest.Hierarchy

Grouping templates into components and components into parts, both in the order in which they
were first seen. At both levels an index holds the position of the entry of each name, so that
filing does not search. A component gathers the declarations of its templates; if they both require
it and make it optional, the conflict is reported once, and the declaration that came last decides.
-/

namespace RefManifest

/-- One template, ready to be filed. -/
structure Record where
  id : String
  part : String
  component : String
  directives : Directives
deriving Repr, DecidableEq, Inhabited

/-- What is known of a component from the templates filed so far. -/
structure ComponentState where
  name : String
  merged : Option Requirement
  declaredRequired : Bool
  declaredOptional : Bool
  lastDeclared : Option Requirement
  conflicted : Bool
  requiredTemplates : List String
  optionalTemplates : List String
deriving Repr, DecidableEq

namespace ComponentState

def start (name : String) : ComponentState := ⟨name, none, false, false, none, false, [], []⟩

/-- The list a template goes to depends on its own declaration alone. -/
def listed (d : Directives) : Requirement := d.templateRequirement.getD .required

def record (s : ComponentState) (r : Record) : ComponentState :=
  let d := r.directives
  let required := s.declaredRequired || d.componentRequired
  let optional := s.declaredOptional || d.componentOptional
  { name := s.name
    merged := Requirement.merge (Requirement.merge s.merged d.templateRequirement)
      d.componentRequirement
    declaredRequired := required
    declaredOptional := optional
    lastDeclared := d.lastComponentRequirement <|> s.lastDeclared
    conflicted := s.conflicted || (required && optional)
    requiredTemplates :=
      if listed d = .required then s.requiredTemplates ++ [r.id] else s.requiredTemplates
    optionalTemplates :=
      if listed d = .optional then s.optionalTemplates ++ [r.id] else s.optionalTemplates }

/-- The status: the last declaration after a conflict, the merged ones otherwise. -/
def requirement (s : ComponentState) : Requirement :=
  (if s.conflicted then s.lastDeclared else s.merged).getD .required

def toComponent (s : ComponentState) : Component :=
  ⟨s.name, s.requirement, s.requiredTemplates, s.optionalTemplates⟩

/-- Recording the template brings the component into conflict, which it was not in before. -/
def turns (s : ComponentState) (r : Record) : Bool := (s.record r).conflicted && !s.conflicted

end ComponentState

/-- The position of the entry of each name, the one entered last in front. -/
abbrev Index := List (String × Nat)

section Filing

variable {α : Type}

/-- Where the entry of a name is. If the index holds no position for it, `fresh` is added at the
end and its position entered. -/
def positionIn (name : String) (fresh : α) (entries : List α) (index : Index) :
    List α × Index × Nat :=
  match index.lookup name with
  | some i => (entries, index, i)
  | none => (entries ++ [fresh], (name, entries.length) :: index, entries.length)

/-- Changes the entry of a name, which is added if it is new. The change answers a flag. -/
def fileIn (name : String) (fresh : α) (change : α → α × Bool) (entries : List α)
    (index : Index) : List α × Index × Bool :=
  let (entries, index, i) := positionIn name fresh entries index
  match entries[i]? with
  | some x => (entries.set i (change x).1, index, (change x).2)
  -- A position without an entry: no index that filing keeps holds one.
  | none => (entries, index, false)

end Filing

structure PartState where
  name : String
  components : List ComponentState
  index : Index
deriving Repr, DecidableEq

namespace PartState

def start (name : String) : PartState := ⟨name, [], []⟩

/-- Files a template with the component of its name. The flag tells whether that component has
just come into conflict. -/
def record (p : PartState) (r : Record) : PartState × Bool :=
  let (components, index, conflict) := fileIn r.component (ComponentState.start r.component)
    (fun s => (s.record r, s.turns r)) p.components p.index
  (⟨p.name, components, index⟩, conflict)

def toPart (p : PartState) : Part := ⟨p.name, p.components.map ComponentState.toComponent⟩

end PartState

/-- The parts seen so far and the number of conflicts that did not end the run. -/
structure Hierarchy where
  exitOnError : Bool
  parts : List PartState
  index : Index
  errorCount : Nat
deriving Repr, DecidableEq

namespace Hierarchy

def start (exitOnError : Bool) : Hierarchy := ⟨exitOnError, [], [], 0⟩

/-- Files a template with the part of its name. -/
def record (h : Hierarchy) (r : Record) : Hierarchy × Bool :=
  let (parts, index, conflict) :=
    fileIn r.part (PartState.start r.part) (·.record r) h.parts h.index
  (⟨h.exitOnError, parts, index, h.errorCount⟩, conflict)

def conflictOf (r : Record) : Failure := .conflictingStatus r.part r.component

def conflictMessage (r : Record) : String :=
  (conflictOf r).message ++ " (contradicting directive in " ++ r.id ++ ")"

def addedNotice (r : Record) : Notice :=
  .log .debug .metadata
    ("Added " ++ r.id ++ " to component '" ++ r.component ++ "' of part '" ++ r.part ++ "'")

/-- Files a template. A new conflict is an error, or ends the run if that was asked for; the
template is filed in both cases. -/
def add (h : Hierarchy) (r : Record) : Hierarchy × List Notice × Option Failure :=
  let (filed, conflict) := h.record r
  if conflict then
    if h.exitOnError then
      (filed, [addedNotice r, .fatal (conflictMessage r)], some (conflictOf r))
    else
      ({ filed with errorCount := h.errorCount + 1 },
        [addedNotice r, .error (conflictMessage r)], none)
  else (filed, [addedNotice r], none)

def finish (h : Hierarchy) : Manifest := Manifest.ofParts (h.parts.map PartState.toPart)

end Hierarchy
end RefManifest
