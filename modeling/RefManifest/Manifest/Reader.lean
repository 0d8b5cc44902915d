import RefManifest.Json.Reader
import RefManifest.Manifest

/-!
# RefManifest.Manifest.Reader

Reading a manifest from JSON. A list that is missing counts as empty, other fields are skipped,
and every structure may also be the list of its values.
-/

namespace RefManifest

open Json

def Requirement.ofLabel? (s : String) : Option Requirement :=
  if s = "Required" then some .required
  else if s = "Optional" then some .optional
  else none

def readLabel (s : List Char) : Except ReadError Requirement :=
  match Requirement.ofLabel? (String.ofList s) with
  | some r => .ok r
  | none =>
    .error (.data ("unknown variant `" ++ String.ofList s ++
      "`, expected `Required` or `Optional`"))

/-- A requirement is its label, or an object that gives `null` under the label. -/
def Requirement.read : Reader Requirement
  | .text s => readLabel s
  | .object ((.text s, d) :: rest) =>
    match readLabel s with
    | .error e => .error e
    | .ok r =>
      match d, rest with
      | .null, [] => .ok r
      | .null, _ :: _ => .error .malformed
      | d, _ => .error (d.unexpected "unit")
  | _ => .error .malformed

def templateShape : Reader.Shape (Option String) where
  name := "TemplateRef"
  fieldNames := ["path"]
  least := 1
  start := none
  take name :=
    if name = "path" then some fun _ d => (Reader.text d).map some
    else none

def readTemplate (d : Document) : Except ReadError String :=
  match templateShape.read d with
  | .error e => .error e
  | .ok path => Reader.needed "path" path

structure ComponentFields where
  name : Option String := none
  requirement : Option Requirement := none
  requiredTemplates : List String := []
  optionalTemplates : List String := []
deriving Repr

def componentShape : Reader.Shape ComponentFields where
  name := "Component"
  fieldNames := ["name", "type", "requiredTemplates", "optionalTemplates"]
  least := 2
  start := {}
  take name :=
    if name = "name" then
      some fun s d => (Reader.text d).map fun x => { s with name := some x }
    else if name = "type" then
      some fun s d => (Requirement.read d).map fun x => { s with requirement := some x }
    else if name = "requiredTemplates" then
      some fun s d =>
        (Reader.list readTemplate d).map fun x => { s with requiredTemplates := x }
    else if name = "optionalTemplates" then
      some fun s d =>
        (Reader.list readTemplate d).map fun x => { s with optionalTemplates := x }
    else none

def Component.read (d : Document) : Except ReadError Component :=
  match componentShape.read d with
  | .error e => .error e
  | .ok s =>
    match Reader.needed "name" s.name with
    | .error e => .error e
    | .ok name =>
      match Reader.needed "type" s.requirement with
      | .error e => .error e
      | .ok requirement => .ok ⟨name, requirement, s.requiredTemplates, s.optionalTemplates⟩

structure PartFields where
  name : Option String := none
  components : List Component := []
deriving Repr

def partShape : Reader.Shape PartFields where
  name := "Part"
  fieldNames := ["name", "components"]
  least := 1
  start := {}
  take name :=
    if name = "name" then
      some fun s d => (Reader.text d).map fun x => { s with name := some x }
    else if name = "components" then
      some fun s d => (Reader.list Component.read d).map fun x => { s with components := x }
    else none

def Part.read (d : Document) : Except ReadError Part :=
  match partShape.read d with
  | .error e => .error e
  | .ok s =>
    match Reader.needed "name" s.name with
    | .error e => .error e
    | .ok name => .ok ⟨name, s.components⟩

structure ManifestFields where
  apiVersion : Option String := none
  parts : List Part := []
deriving Repr

def manifestShape : Reader.Shape ManifestFields where
  name := "Manifest"
  fieldNames := ["apiVersion", "parts"]
  least := 1
  start := {}
  take name :=
    if name = "apiVersion" then
      some fun s d => (Reader.text d).map fun x => { s with apiVersion := some x }
    else if name = "parts" then
      some fun s d => (Reader.list Part.read d).map fun x => { s with parts := x }
    else none

def Manifest.read (d : Document) : Except ReadError Manifest :=
  match manifestShape.read d with
  | .error e => .error e
  | .ok s =>
    match Reader.needed "apiVersion" s.apiVersion with
    | .error e => .error e
    | .ok version => .ok ⟨version, s.parts⟩

/-- The manifest that a JSON text holds; nothing may follow it. -/
def Manifest.ofJson (text : List Char) : Except ReadError Manifest :=
  match Document.ofTokens (Json.tokens text) with
  | (d, rest) =>
    match Manifest.read d with
    | .error e => .error e
    | .ok m => if rest.isEmpty then .ok m else .error .malformed

end RefManifest
