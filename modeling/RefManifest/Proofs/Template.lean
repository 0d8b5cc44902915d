import RefManifest.Proofs.Text.Blank
import RefManifest.Template

/-!
# RefManifest.Proofs.Template

The names and the component statuses that a template declares.

A line declares a name if it is a comment that opens with the token of that name and something
other than blanks follows (`Directive.nameOn?`). What is kept of a template is what its first such
line declares (`Directives.slot_extract`), so a name without text is passed over, and a name that
is kept is never empty.

Of the statuses that the lines declare for the component as a whole (`Directives.statuses`), the
flags tell which of them occur (`declares_extract`) and the last one is kept (`last_extract`).
-/

namespace RefManifest

open Text

namespace Directive

def token : NameAxis → List Char
  | .part => partToken
  | .component => componentToken

/-- The name that the line declares. -/
def nameOn? (axis : NameAxis) (line : List Char) : Option String :=
  (commentBody? line).bind fun body => (stripLead? (token axis) (trim body)).bind name?

/-- The name that the directive declares. -/
def named? : NameAxis → Directive → Option String
  | .part, .part name => some name
  | .component, .component name => some name
  | _, _ => none

theorem name?_ne_empty {rest : List Char} {name : String} (h : name? rest = some name) :
    name ≠ "" := by
  unfold name? at h
  split at h
  · cases h
  · cases h
    simp

theorem nameOn?_ne_empty {axis : NameAxis} {line : List Char} {name : String}
    (h : nameOn? axis line = some name) : name ≠ "" := by
  obtain ⟨body, -, hbody⟩ := Option.bind_eq_some_iff.1 h
  obtain ⟨rest, -, hrest⟩ := Option.bind_eq_some_iff.1 hbody
  exact name?_ne_empty hrest

/-- No text opens with both tokens: they differ in the first letter after the common words. -/
theorem stripLead?_componentToken {b rest : List Char} (h : stripLead? partToken b = some rest) :
    stripLead? componentToken b = none :=
  stripLead?_of_apart h (by decide) (by decide)

theorem ofWord?_named? (axis : NameAxis) (word : List Char) :
    (ofWord? word).bind (named? axis) = none := by
  unfold ofWord?
  repeat' split
  all_goals cases axis <;> rfl

theorem ofBody?_named? (axis : NameAxis) (body : List Char) :
    (ofBody? body).bind (named? axis) = (stripLead? (token axis) (trim body)).bind name? := by
  unfold ofBody?
  cases hpart : stripLead? partToken (trim body) with
  | some rest =>
    have hother := stripLead?_componentToken hpart
    cases axis with
    | part =>
      simp only [hpart, token, Option.bind_some]
      cases name? rest <;> rfl
    | component =>
      simp only [hpart, hother, token, Option.bind_none]
      cases name? rest <;> rfl
  | none =>
    cases hcomponent : stripLead? componentToken (trim body) with
    | some rest =>
      cases axis with
      | part =>
        simp only [hpart, hcomponent, token, Option.bind_none]
        cases name? rest <;> rfl
      | component =>
        simp only [hpart, hcomponent, token, Option.bind_some]
        cases name? rest <;> rfl
    | none =>
      have hword : ((firstWord? (trim body)).bind ofWord?).bind (named? axis) = none := by
        cases firstWord? (trim body) with
        | none => rfl
        | some word => exact ofWord?_named? axis word
      cases axis with
      | part => simp only [hpart, hcomponent, hword, token, Option.bind_none]
      | component => simp only [hpart, hcomponent, hword, token, Option.bind_none]

theorem parseLine_named? (axis : NameAxis) (line : List Char) :
    (parseLine line).bind (named? axis) = nameOn? axis line := by
  rw [parseLine, Option.bind_assoc, nameOn?]
  exact congrArg _ (funext fun body => ofBody?_named? axis body)

end Directive

namespace Directives

def slot : NameAxis → Directives → Option String
  | .part, d => d.part
  | .component, d => d.component

theorem keepFirst_fst (path : String) (axis : NameAxis) (slot : Option String) (name : String) :
    (keepFirst path axis slot name).1 = slot.or (some name) := by
  unfold keepFirst
  split
  · rfl
  · split <;> rfl

theorem slot_apply (axis : NameAxis) (path : String) (d : Directives) (x : Directive) :
    (d.apply path x).1.slot axis = (d.slot axis).or (x.named? axis) := by
  cases x with
  | part name =>
    cases axis with
    | part => exact keepFirst_fst path .part d.part name
    | component => exact Option.or_none.symm
  | component name =>
    cases axis with
    | part => exact Option.or_none.symm
    | component => exact keepFirst_fst path .component d.component name
  | componentRequirement q =>
    cases axis <;> cases q <;> exact Option.or_none.symm
  | templateRequirement q =>
    cases axis <;> exact Option.or_none.symm

theorem slot_applyAll (axis : NameAxis) (path : String) (d : Directives) (xs : List Directive) :
    (applyAll path d xs).1.slot axis =
      (d.slot axis).or (xs.findSome? (Directive.named? axis)) := by
  induction xs generalizing d with
  | nil => simp [applyAll]
  | cons x xs ih =>
    rw [applyAll, ih, slot_apply, List.findSome?_cons, Option.or_assoc]
    cases x.named? axis <;> rfl

theorem slot_extract (axis : NameAxis) (path : Path) (content : List Char) :
    (extract path content).1.slot axis = (lines content).findSome? (Directive.nameOn? axis) := by
  have hempty : slot axis {} = none := by cases axis <;> rfl
  have hline : (fun line => (Directive.parseLine line).bind (Directive.named? axis)) =
      Directive.nameOn? axis := funext fun line => Directive.parseLine_named? axis line
  rw [extract, slot_applyAll, lineDirectives, hempty, Option.none_or, ← List.head?_filterMap,
    List.filterMap_filterMap, hline, List.head?_filterMap]

end Directives

/-! ## Component statuses -/

/-- The status that the directive declares for its component as a whole. -/
def Directive.status? : Directive → Option Requirement
  | .componentRequirement q => some q
  | _ => none

namespace Directives

/-- The flag of the status. -/
def declares : Requirement → Directives → Bool
  | .required, d => d.componentRequired
  | .optional, d => d.componentOptional

/-- The statuses that the lines declare for the component, from top to bottom. -/
def statuses (content : List Char) : List Requirement :=
  (lineDirectives content).filterMap Directive.status?

/-- A flag that is set stays, and a status sets its own. -/
theorem declares_apply (q : Requirement) (path : String) (d : Directives) (x : Directive) :
    (d.apply path x).1.declares q = (d.declares q || x.status? == some q) := by
  cases x with
  | part name => cases q <;> simp [apply, declares, Directive.status?]
  | component name => cases q <;> simp [apply, declares, Directive.status?]
  | componentRequirement r => cases q <;> cases r <;> simp [apply, declares, Directive.status?]
  | templateRequirement r => cases q <;> simp [apply, declares, Directive.status?]

theorem last_apply (path : String) (d : Directives) (x : Directive) :
    (d.apply path x).1.lastComponentRequirement = x.status?.or d.lastComponentRequirement := by
  cases x with
  | part name => rfl
  | component name => rfl
  | componentRequirement r => cases r <;> rfl
  | templateRequirement r => rfl

theorem declares_applyAll (q : Requirement) (path : String) (d : Directives)
    (xs : List Directive) :
    (applyAll path d xs).1.declares q =
      (d.declares q || decide (q ∈ xs.filterMap Directive.status?)) := by
  induction xs generalizing d with
  | nil => simp [applyAll]
  | cons x xs ih =>
    rw [applyAll, ih, declares_apply]
    cases hx : x.status? with
    | none => simp [hx]
    | some r =>
      have hsame : (some r == some q) = decide (q = r) := by cases q <;> cases r <;> rfl
      rw [List.filterMap_cons_some hx, hsame]
      simp only [List.mem_cons, Bool.decide_or, Bool.or_assoc]

theorem last_applyAll (path : String) (d : Directives) (xs : List Directive) :
    (applyAll path d xs).1.lastComponentRequirement =
      (xs.filterMap Directive.status?).getLast?.or d.lastComponentRequirement := by
  induction xs generalizing d with
  | nil => rfl
  | cons x xs ih =>
    rw [applyAll, ih, last_apply, ← Option.or_assoc]
    cases hx : x.status? with
    | none => simp [hx]
    | some r => simp [hx, List.getLast?_cons]

theorem declares_extract (q : Requirement) (path : Path) (content : List Char) :
    (extract path content).1.declares q = true ↔ q ∈ statuses content := by
  have hempty : declares q {} = false := by cases q <;> rfl
  rw [extract, declares_applyAll, hempty, Bool.false_or, decide_eq_true_eq, statuses]

theorem last_extract (path : Path) (content : List Char) :
    (extract path content).1.lastComponentRequirement = (statuses content).getLast? := by
  rw [extract, last_applyAll, Option.or_none, statuses]

end Directives
end RefManifest
