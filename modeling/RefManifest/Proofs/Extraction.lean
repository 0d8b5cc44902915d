import Mathlib.Data.List.Basic
import Mathlib.Data.List.Induction
import RefManifest.Proofs.Hierarchy.Component
import RefManifest.Proofs.Template

/-!
# RefManifest.Proofs.Extraction

What is extracted from a template, as a function of the sequence of its directives.

Four rules are at work on one stream: of the names the first one stays, the component flags only
ever go up, of the component statuses the last one stays, and of the statuses of the template
itself `required` wins. Each has its own lemma about a whole run (`slot_applyAll`,
`declares_applyAll`, `last_applyAll`, `templateRequirement_applyAll`).

A warning depends on what was kept so far, so on the directives in front of the one that it is
about, and on nothing else (`warningAfter`). The run tells these warnings in the order of the
file (`applyAll_snd`, by induction from the end).
-/

namespace RefManifest
namespace Directives

variable (path : String)

/-- The first name that the directives declare. -/
def firstName (axis : NameAxis) (xs : List Directive) : Option String :=
  xs.findSome? (Directive.named? axis)

theorem slot_eq_firstName (axis : NameAxis) (xs : List Directive) :
    (applyAll path {} xs).1.slot axis = firstName axis xs := by
  rw [slot_applyAll]
  cases axis <;> rfl

/-- What the directives declare for the template itself, merged. -/
def marking (xs : List Directive) : Option Requirement :=
  verdict (decide (.templateRequirement .required ∈ xs))
    (decide (.templateRequirement .optional ∈ xs))

theorem marking_append (xs ys : List Directive) :
    marking (xs ++ ys) = Requirement.merge (marking xs) (marking ys) := by
  simp only [marking, merge_verdict, List.mem_append, Bool.decide_or]

theorem marking_cons (x : Directive) (xs : List Directive) :
    marking (x :: xs) = Requirement.merge (marking [x]) (marking xs) := marking_append [x] xs

theorem marking_ne_none {q : Requirement} {xs : List Directive}
    (h : .templateRequirement q ∈ xs) : marking xs ≠ none := by
  unfold marking verdict
  cases q with
  | required => simp [h]
  | optional => by_cases hrequired : .templateRequirement .required ∈ xs <;> simp [h, hrequired]

theorem templateRequirement_apply (d : Directives) (x : Directive) :
    (d.apply path x).1.templateRequirement =
      Requirement.merge d.templateRequirement (marking [x]) := by
  cases x with
  | part name => exact (Requirement.merge_none _).symm
  | component name => exact (Requirement.merge_none _).symm
  | componentRequirement q => cases q <;> exact (Requirement.merge_none _).symm
  | templateRequirement q => cases q <;> rfl

theorem templateRequirement_applyAll (d : Directives) (xs : List Directive) :
    (applyAll path d xs).1.templateRequirement =
      Requirement.merge d.templateRequirement (marking xs) := by
  induction xs generalizing d with
  | nil => exact (Requirement.merge_none _).symm
  | cons x xs ih =>
    rw [applyAll, ih, templateRequirement_apply, marking_cons x xs, Requirement.merge_assoc]

theorem templateRequirement_eq_marking (xs : List Directive) :
    (applyAll path {} xs).1.templateRequirement = marking xs := by
  rw [templateRequirement_applyAll, Requirement.merge_comm]
  exact Requirement.merge_none _

theorem mem_filterMap_status? {q : Requirement} {xs : List Directive} :
    q ∈ xs.filterMap Directive.status? ↔ .componentRequirement q ∈ xs := by
  rw [List.mem_filterMap]
  constructor
  · rintro ⟨x, hx, hq⟩
    cases x <;> cases hq
    exact hx
  · exact fun h => ⟨_, h, rfl⟩

/-- Every directive leaves something behind, whatever follows it. -/
theorem applyAll_ne_empty (x : Directive) (xs : List Directive) :
    (applyAll path {} (x :: xs)).1 ≠ {} := by
  intro h
  cases x with
  | part name =>
    have hname := slot_eq_firstName path .part (.part name :: xs)
    rw [h] at hname
    cases hname
  | component name =>
    have hname := slot_eq_firstName path .component (.component name :: xs)
    rw [h] at hname
    cases hname
  | componentRequirement q =>
    have hflag := declares_applyAll q path {} (.componentRequirement q :: xs)
    have hunset : declares q {} = false := by cases q <;> rfl
    rw [h, hunset, Bool.false_or, eq_comm, decide_eq_false_iff_not, mem_filterMap_status?] at hflag
    exact hflag (List.mem_cons_self ..)
  | templateRequirement q =>
    have hmarked := templateRequirement_eq_marking path (.templateRequirement q :: xs)
    rw [h] at hmarked
    exact marking_ne_none (List.mem_cons_self ..) hmarked.symm

theorem applyAll_eq_empty (xs : List Directive) : (applyAll path {} xs).1 = {} ↔ xs = [] := by
  cases xs with
  | nil => exact iff_of_true rfl rfl
  | cons x xs => exact iff_of_false (applyAll_ne_empty path x xs) (List.cons_ne_nil x xs)

/-! ## The warnings -/

/-- What is told of a name that differs from the one that is kept. -/
def renamed (axis : NameAxis) (kept name : String) : Notice :=
  warning ("Template " ++ path ++ " declares " ++ axis.label ++ " '" ++ kept ++ "' and later '" ++
    name ++ "'; keeping '" ++ kept ++ "'")

/-- What is told of a status that contradicts those of the template so far. -/
def contradicted : Notice :=
  warning ("Template " ++ path ++ " is marked both required and optional; treating it as required")

/-- The warning about a directive that stands behind the others in the file. -/
def warningAfter (before : List Directive) : Directive → Option Notice
  | .part name =>
    ((firstName .part before).filter (· ≠ name)).map (renamed path .part · name)
  | .component name =>
    ((firstName .component before).filter (· ≠ name)).map (renamed path .component · name)
  | .componentRequirement _ => none
  | .templateRequirement q => ((marking before).filter (· ≠ q)).map fun _ => contradicted path

/-- The warnings about all directives of a file, in their order. -/
def warnings (xs : List Directive) : List Notice :=
  (List.range xs.length).filterMap fun i => xs[i]?.bind (warningAfter path (xs.take i))

theorem warnings_concat (xs : List Directive) (x : Directive) :
    warnings path (xs ++ [x]) = warnings path xs ++ (warningAfter path xs x).toList := by
  have hbefore : ∀ i ∈ List.range xs.length,
      (xs ++ [x])[i]?.bind (warningAfter path ((xs ++ [x]).take i)) =
        xs[i]?.bind (warningAfter path (xs.take i)) := by
    intro i hi
    have hlt := List.mem_range.1 hi
    rw [List.getElem?_append_left hlt, List.take_append_of_le_length hlt.le]
  have hlast : (xs ++ [x])[xs.length]?.bind (warningAfter path ((xs ++ [x]).take xs.length)) =
      warningAfter path xs x := by
    rw [List.getElem?_concat_length, List.take_left, Option.bind_some]
  rw [warnings, List.length_append, List.length_singleton, List.range_succ, List.filterMap_append,
    List.filterMap_congr hbefore, ← warnings, List.filterMap_cons, hlast, List.filterMap_nil]
  cases warningAfter path xs x <;> rfl

theorem applyAll_concat (d : Directives) (xs : List Directive) (x : Directive) :
    applyAll path d (xs ++ [x]) =
      (((applyAll path d xs).1.apply path x).1,
        (applyAll path d xs).2 ++ ((applyAll path d xs).1.apply path x).2) := by
  induction xs generalizing d with
  | nil => simp [applyAll]
  | cons y xs ih => simp only [List.cons_append, applyAll, ih, List.append_assoc]

theorem keepFirst_snd (axis : NameAxis) (slot : Option String) (name : String) :
    (keepFirst path axis slot name).2 =
      ((slot.filter (· ≠ name)).map (renamed path axis · name)).toList := by
  cases slot with
  | none => rfl
  | some kept =>
    rw [keepFirst, Option.filter_some]
    by_cases h : kept = name
    · simp [h]
    · simp [h, renamed]

theorem apply_templateRequirement_snd (d : Directives) (q : Requirement) :
    (d.apply path (.templateRequirement q)).2 =
      ((d.templateRequirement.filter (· ≠ q)).map fun _ => contradicted path).toList := by
  rw [apply]
  cases d.templateRequirement with
  | none => rfl
  | some current =>
    rw [Option.filter_some]
    by_cases h : current = q
    · simp [h]
    · simp [h, contradicted]

/-- What one more directive tells, from the directives that were taken in before. -/
theorem apply_snd (xs : List Directive) (x : Directive) :
    ((applyAll path {} xs).1.apply path x).2 = (warningAfter path xs x).toList := by
  cases x with
  | part name =>
    rw [warningAfter, ← slot_eq_firstName path]
    exact keepFirst_snd path .part _ name
  | component name =>
    rw [warningAfter, ← slot_eq_firstName path]
    exact keepFirst_snd path .component _ name
  | componentRequirement q => cases q <;> rfl
  | templateRequirement q =>
    rw [apply_templateRequirement_snd, templateRequirement_eq_marking, warningAfter]

theorem applyAll_snd (xs : List Directive) : (applyAll path {} xs).2 = warnings path xs := by
  induction xs using List.reverseRecOn with
  | nil => rfl
  | append_singleton xs x ih => rw [applyAll_concat, warnings_concat, ← apply_snd, ih]

/-- A name that is repeated is not told of, even behind a different one. -/
example :
    warnings "a.yaml" [.part "core", .templateRequirement .optional, .part "edge",
        .templateRequirement .required, .part "core", .templateRequirement .required] =
      [renamed "a.yaml" .part "core" "edge", contradicted "a.yaml"] := by
  decide

/-- What is extracted from a template with that content, and what is told on the way. Each field
follows its own rule over all directives in the file, all fields are empty exactly if there is no
directive, and there is one warning for each directive that disagrees with those before it. -/
theorem extract_summarizes (path : Path) (content : List Char) :
    let xs := lineDirectives content
    let d := (extract path content).1
    d.part = firstName .part xs ∧
      d.component = firstName .component xs ∧
      (d.componentRequired = true ↔ .componentRequirement .required ∈ xs) ∧
      (d.componentOptional = true ↔ .componentRequirement .optional ∈ xs) ∧
      d.lastComponentRequirement = (xs.filterMap Directive.status?).getLast? ∧
      d.templateRequirement = marking xs ∧
      (d.isEmpty = true ↔ xs = []) ∧
      (extract path content).2 = warnings path.display xs := by
  intro xs d
  have hflag (q : Requirement) : d.declares q = true ↔ .componentRequirement q ∈ xs := by
    rw [declares_extract, statuses, mem_filterMap_status?]
  have hempty : d.isEmpty = true ↔ xs = [] := by
    rw [isEmpty, beq_iff_eq]
    exact applyAll_eq_empty path.display xs
  exact ⟨slot_eq_firstName path.display .part xs, slot_eq_firstName path.display .component xs,
    hflag .required, hflag .optional, last_extract path content,
    templateRequirement_eq_marking path.display xs, hempty, applyAll_snd path.display xs⟩

end Directives
end RefManifest
