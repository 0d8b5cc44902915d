import RefManifest.Proofs.Hierarchy.Component

/-!
# RefManifest.Proofs.Hierarchy.Status

The status of every component of every run of the builder.

While no record contradicts another, the status is the merge of all declarations, where
`required` wins; once the component-level declarations contradict each other, the last of them
decides. `status_of_component` states both rules on the records of the component, so no other
record has a say.
-/

namespace RefManifest
namespace Hierarchy

/-- Some record requires the component as a whole, and some record makes it optional. -/
def Contested (own : List Record) : Prop :=
  (∃ r ∈ own, r.directives.componentRequired = true) ∧
    ∃ r ∈ own, r.directives.componentOptional = true

instance (own : List Record) : Decidable (Contested own) :=
  inferInstanceAs (Decidable (_ ∧ _))

/-- Some record makes the component optional, by either kind of directive, and none requires it. -/
def OnlyOptional (own : List Record) : Prop :=
  (∃ r ∈ own, r.directives.templateRequirement = some .optional ∨
      r.directives.componentOptional = true) ∧
    ¬ ∃ r ∈ own, r.directives.templateRequirement = some .required ∨
      r.directives.componentRequired = true

theorem conflicted_iff (c : String) (own : List Record) :
    (ComponentState.gathered c own).conflicted = true ↔ Contested own := by
  simp [ComponentState.gathered_conflicted, Contested]

theorem any_requires (own : List Record) :
    own.any Record.requires = true ↔
      ∃ r ∈ own, r.directives.templateRequirement = some .required ∨
        r.directives.componentRequired = true := by
  simp [Record.requires]

theorem any_relaxes (own : List Record) :
    own.any Record.relaxes = true ↔
      ∃ r ∈ own, r.directives.templateRequirement = some .optional ∨
        r.directives.componentOptional = true := by
  simp [Record.relaxes]

theorem requirement_of_contested (c : String) {own : List Record} (h : Contested own) :
    (componentOf c own).requirement =
      (own.filterMap (·.directives.lastComponentRequirement)).getLast?.getD .required := by
  have hc := (conflicted_iff c own).2 h
  simp [componentOf, ComponentState.toComponent, ComponentState.requirement, hc,
    ComponentState.gathered_lastDeclared]

theorem requirement_of_not_contested (c : String) {own : List Record} (h : ¬ Contested own) :
    (componentOf c own).requirement =
      (verdict (own.any Record.requires) (own.any Record.relaxes)).getD .required := by
  have hc : (ComponentState.gathered c own).conflicted = false := by
    rw [Bool.eq_false_iff]
    exact fun e => h ((conflicted_iff c own).1 e)
  simp [componentOf, ComponentState.toComponent, ComponentState.requirement, hc,
    ComponentState.gathered_merged]

theorem verdict_of_onlyOptional {own : List Record} (h : OnlyOptional own) :
    verdict (own.any Record.requires) (own.any Record.relaxes) = some .optional := by
  have hopt := (any_relaxes own).2 h.1
  have hreq : own.any Record.requires = false := by
    rw [Bool.eq_false_iff]
    exact fun e => h.2 ((any_requires own).1 e)
  simp [verdict, hopt, hreq]

theorem verdict_of_not_onlyOptional {own : List Record} (h : ¬ OnlyOptional own) :
    (verdict (own.any Record.requires) (own.any Record.relaxes)).getD .required = .required := by
  -- Either something requires the component, or nothing declares anything.
  cases hreq : own.any Record.requires with
  | true => simp [verdict]
  | false =>
    have hopt : own.any Record.relaxes = false := by
      rw [Bool.eq_false_iff]
      intro e
      refine h ⟨(any_relaxes own).1 e, fun hr => ?_⟩
      rw [(any_requires own).2 hr] at hreq
      cases hreq
    simp [verdict, hopt]

/-- The status of a component. In either mode, and whatever the steps answered, it is decided
by the records of that component in their order: a contested component has the last declaration
of its kind, and any other is optional exactly when it is only ever made optional. -/
theorem status_of_component (strict : Bool) (rs : List Record) (p : Part)
    (hp : p ∈ (feed strict rs).finish.parts) (c : Component) (hc : c ∈ p.components) :
    let own := ofComponent (ofPart rs p.name) c.name
    (Contested own →
      c.requirement =
        (own.filterMap (·.directives.lastComponentRequirement)).getLast?.getD .required) ∧
    (¬ Contested own → OnlyOptional own → c.requirement = .optional) ∧
    (¬ Contested own → ¬ OnlyOptional own → c.requirement = .required) := by
  obtain ⟨-, hpart⟩ := mem_parts_finish hp
  rw [hpart] at hc
  obtain ⟨-, hcomp⟩ := mem_components_partOf hc
  intro own
  have hown : c.requirement = (componentOf c.name own).requirement :=
    congrArg Component.requirement hcomp
  rw [hown]
  refine ⟨requirement_of_contested c.name, fun hn ho => ?_, fun hn ho => ?_⟩
  · rw [requirement_of_not_contested c.name hn, verdict_of_onlyOptional ho]
    rfl
  · rw [requirement_of_not_contested c.name hn, verdict_of_not_onlyOptional ho]

/-- Two records that contradict each other on one component, and one of another part that has a
component of the same name. -/
def contradiction : List Record :=
  [⟨"a.yaml", "core", "dns",
      { componentRequired := true, lastComponentRequirement := some .required }⟩,
    ⟨"b.yaml", "edge", "dns", { templateRequirement := some .required }⟩,
    ⟨"c.yaml", "core", "dns",
      { componentOptional := true, lastComponentRequirement := some .optional }⟩]

theorem status_of_contradiction :
    ∃ p ∈ (feed false contradiction).finish.parts, ∃ c ∈ p.components,
      Contested (ofComponent (ofPart contradiction p.name) c.name) ∧ c.requirement = .optional := by
  let c : Component := ⟨"dns", .optional, ["a.yaml", "c.yaml"], []⟩
  let p : Part := ⟨"core", [c]⟩
  have hp : p ∈ (feed false contradiction).finish.parts := by decide
  have hc : c ∈ p.components := List.mem_singleton.2 rfl
  have hcontested : Contested (ofComponent (ofPart contradiction p.name) c.name) := by decide
  refine ⟨p, hp, c, hc, hcontested, ?_⟩
  rw [(status_of_component false contradiction p hp c hc).1 hcontested]
  decide

end Hierarchy
end RefManifest
