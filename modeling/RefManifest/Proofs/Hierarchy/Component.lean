import RefManifest.Proofs.Hierarchy.Feed

/-!
# RefManifest.Proofs.Hierarchy.Component

What a component state holds, as a function of the records that were filed under it.

`record` updates seven fields at each step; each of them is given here as a closed form over the
whole list of records: flags as "some record", lists as a filter, the last declaration as the last
element, and the merged declarations as a `verdict` over two flags. Every one is an induction on
the records from the end, with `gathered_concat` for the step.
-/

namespace RefManifest

/-- The record requires its component, by either kind of directive. -/
def Record.requires (r : Record) : Bool :=
  r.directives.templateRequirement == some .required || r.directives.componentRequired

/-- The record makes its component optional, by either kind of directive. -/
def Record.relaxes (r : Record) : Bool :=
  r.directives.templateRequirement == some .optional || r.directives.componentOptional

/-- Merged declarations, when it is known which of the two kinds occur among them. -/
def verdict (required optional : Bool) : Option Requirement :=
  if required then some .required else if optional then some .optional else none

theorem merge_verdict (a b a' b' : Bool) :
    Requirement.merge (verdict a b) (verdict a' b') = verdict (a || a') (b || b') := by
  cases a <;> cases b <;> cases a' <;> cases b' <;> rfl

/-- The declarations of one record, merged. -/
theorem merge_record (r : Record) :
    Requirement.merge r.directives.templateRequirement r.directives.componentRequirement =
      verdict r.requires r.relaxes := by
  obtain ⟨_, _, _, ⟨_, _, required, optional, _, own⟩⟩ := r
  rcases own with _ | _ | _ <;> cases required <;> cases optional <;> rfl

namespace ComponentState

variable (c : String) (rs : List Record)

theorem gathered_merged :
    (gathered c rs).merged = verdict (rs.any Record.requires) (rs.any Record.relaxes) := by
  induction rs using List.reverseRecOn with
  | nil => rfl
  | append_singleton rs r ih =>
    rw [gathered_concat]
    simp only [record, ih, Requirement.merge_assoc, merge_record, merge_verdict, List.any_append,
      List.any_cons, List.any_nil, Bool.or_false]

theorem gathered_declaredRequired :
    (gathered c rs).declaredRequired = rs.any (·.directives.componentRequired) := by
  induction rs using List.reverseRecOn with
  | nil => rfl
  | append_singleton rs r ih => simp [gathered_concat, record, ih]

theorem gathered_declaredOptional :
    (gathered c rs).declaredOptional = rs.any (·.directives.componentOptional) := by
  induction rs using List.reverseRecOn with
  | nil => rfl
  | append_singleton rs r ih => simp [gathered_concat, record, ih]

/-- The flag is set at the record that completes the contradiction and stays set. -/
theorem gathered_conflicted :
    (gathered c rs).conflicted =
      (rs.any (·.directives.componentRequired) && rs.any (·.directives.componentOptional)) := by
  induction rs using List.reverseRecOn with
  | nil => rfl
  | append_singleton rs r ih =>
    rw [gathered_concat]
    simp only [record, ih, gathered_declaredRequired, gathered_declaredOptional, List.any_append,
      List.any_cons, List.any_nil, Bool.or_false]
    cases rs.any (·.directives.componentRequired) <;>
      cases rs.any (·.directives.componentOptional) <;> simp

theorem gathered_lastDeclared :
    (gathered c rs).lastDeclared =
      (rs.filterMap (·.directives.lastComponentRequirement)).getLast? := by
  induction rs using List.reverseRecOn with
  | nil => rfl
  | append_singleton rs r ih =>
    rw [gathered_concat]
    simp only [record, ih, List.filterMap_append]
    cases h : r.directives.lastComponentRequirement with
    | none => simp [h]
    | some q => simp [h]

theorem gathered_requiredTemplates :
    (gathered c rs).requiredTemplates =
      (rs.filter fun r => r.directives.templateRequirement ≠ some .optional).map (·.id) := by
  induction rs using List.reverseRecOn with
  | nil => rfl
  | append_singleton rs r ih =>
    rw [gathered_concat]
    simp only [record, ih, listed]
    rcases h : r.directives.templateRequirement with _ | _ | _ <;> simp [h]

theorem gathered_optionalTemplates :
    (gathered c rs).optionalTemplates =
      (rs.filter fun r => r.directives.templateRequirement = some .optional).map (·.id) := by
  induction rs using List.reverseRecOn with
  | nil => rfl
  | append_singleton rs r ih =>
    rw [gathered_concat]
    simp only [record, ih, listed]
    rcases h : r.directives.templateRequirement with _ | _ | _ <;> simp [h]

end ComponentState

namespace Hierarchy

/-! ## The manifest, from the records alone -/

/-- The component that the records of one component make. -/
def componentOf (c : String) (own : List Record) : Component :=
  (ComponentState.gathered c own).toComponent

/-- The part that the records of one part make. -/
def partOf (p : String) (own : List Record) : Part :=
  ⟨p, (own.map (·.component)).eraseDups.map fun c => componentOf c (ofComponent own c)⟩

theorem finish_feed (strict : Bool) (rs : List Record) :
    (feed strict rs).finish =
      Manifest.ofParts ((rs.map (·.part)).eraseDups.map fun p => partOf p (ofPart rs p)) := by
  rw [finish, feed_parts, PartState.grouped, List.map_map]
  refine congrArg Manifest.ofParts (List.map_congr_left fun p _ => ?_)
  simp [PartState.toPart, PartState.gathered_name, PartState.gathered_components,
    ComponentState.grouped, partOf, componentOf]

/-- A part of the manifest, and that its name is a part name of the records. -/
theorem mem_parts_finish {strict : Bool} {rs : List Record} {p : Part}
    (h : p ∈ (feed strict rs).finish.parts) :
    p.name ∈ rs.map (·.part) ∧ p = partOf p.name (ofPart rs p.name) := by
  rw [finish_feed] at h
  obtain ⟨name, hname, rfl⟩ := List.mem_map.1 h
  exact ⟨List.mem_eraseDups.1 hname, rfl⟩

theorem mem_components_partOf {name : String} {own : List Record} {c : Component}
    (h : c ∈ (partOf name own).components) :
    c.name ∈ own.map (·.component) ∧ c = componentOf c.name (ofComponent own c.name) := by
  obtain ⟨n, hn, rfl⟩ := List.mem_map.1 h
  have hname : (componentOf n (ofComponent own n)).name = n := ComponentState.gathered_name _ _
  rw [hname]
  exact ⟨List.mem_eraseDups.1 hn, rfl⟩

theorem mem_components_finish {strict : Bool} {rs : List Record} {p : Part} {c : Component}
    (hp : p ∈ (feed strict rs).finish.parts) (hc : c ∈ p.components) :
    c = componentOf c.name (ofComponent (ofPart rs p.name) c.name) := by
  rw [(mem_parts_finish hp).2] at hc
  exact (mem_components_partOf hc).2

end Hierarchy
end RefManifest
