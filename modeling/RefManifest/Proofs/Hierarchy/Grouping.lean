import Mathlib.Data.List.Perm.Basic
import RefManifest.Proofs.Hierarchy.Component

/-!
# RefManifest.Proofs.Hierarchy.Grouping

The manifest is the records, grouped by part and component in the order of first occurrence.

`finish_groups` reads this off `finish_feed`, which rests on indices that are never stale
(`feed_indexed`): names are the names of the records without later repeats, lists are the records
of one component in the order in which they were added, and both lookups find the only entry of a
record. That nothing is lost or listed twice is a permutation: `templatePaths_perm` gathers the
templates of all components back into the records.
-/

namespace RefManifest
namespace Hierarchy

theorem flatMap_filter_perm {α : Type} (key : α → String) {ks : List String} (hks : ks.Nodup)
    (xs : List α) :
    (ks.flatMap fun k => xs.filter fun x => key x = k).Perm (xs.filter fun x => key x ∈ ks) := by
  induction ks with
  | nil => simp
  | cons k ks ih =>
    obtain ⟨hk, hnd⟩ := List.nodup_cons.1 hks
    have hfirst : (xs.filter fun x => key x ∈ k :: ks).filter (fun x => key x = k) =
        xs.filter fun x => key x = k := by
      rw [List.filter_filter]
      apply List.filter_congr
      intro x _
      by_cases h : key x = k <;> simp [h]
    have hrest : (xs.filter fun x => key x ∈ k :: ks).filter (fun x => !decide (key x = k)) =
        xs.filter fun x => key x ∈ ks := by
      rw [List.filter_filter]
      apply List.filter_congr
      intro x _
      by_cases h : key x = k
      · simp [h, hk]
      · simp [h]
    have hsplit := List.filter_append_perm (fun x => decide (key x = k))
      (xs.filter fun x => key x ∈ k :: ks)
    rw [hfirst, hrest] at hsplit
    rw [List.flatMap_cons]
    exact ((ih hnd).append_left _).trans hsplit

theorem flatMap_groups_perm {α : Type} (key : α → String) (xs : List α) :
    ((xs.map key).eraseDups.flatMap fun k => xs.filter fun x => key x = k).Perm xs := by
  refine (flatMap_filter_perm key (nodup_eraseDups _) xs).trans (List.Perm.of_eq ?_)
  rw [List.filter_eq_self]
  intro x hx
  simpa [List.mem_eraseDups] using ⟨x, hx, rfl⟩

theorem templatePaths_componentOf_perm (c : String) (own : List Record) :
    (componentOf c own).templatePaths.Perm (own.map (·.id)) := by
  have hsplit := List.filter_append_perm
    (fun r : Record => decide (r.directives.templateRequirement ≠ some .optional)) own
  have hrest : own.filter (fun r => !decide (r.directives.templateRequirement ≠ some .optional)) =
      own.filter fun r => r.directives.templateRequirement = some .optional := by
    apply List.filter_congr
    intro r _
    simp
  rw [hrest] at hsplit
  have hmap := hsplit.map (·.id)
  rw [List.map_append] at hmap
  simpa [Component.templatePaths, componentOf, ComponentState.toComponent,
    ComponentState.gathered_requiredTemplates, ComponentState.gathered_optionalTemplates]
    using hmap

theorem templatePaths_partOf_perm (p : String) (own : List Record) :
    ((partOf p own).components.flatMap (·.templatePaths)).Perm (own.map (·.id)) := by
  have hgroups := (flatMap_groups_perm (·.component) own).map (·.id)
  rw [List.map_flatMap] at hgroups
  refine List.Perm.trans ?_ hgroups
  rw [partOf, List.flatMap_map]
  exact List.Perm.flatMap_left _ fun c _ => templatePaths_componentOf_perm c (ofComponent own c)

theorem templatePaths_perm (strict : Bool) (rs : List Record) :
    (feed strict rs).finish.templatePaths.Perm (rs.map (·.id)) := by
  have hgroups := (flatMap_groups_perm (·.part) rs).map (·.id)
  rw [List.map_flatMap] at hgroups
  refine List.Perm.trans ?_ hgroups
  rw [finish_feed, Manifest.templatePaths, Manifest.components, Manifest.ofParts,
    List.flatMap_assoc, List.flatMap_map]
  exact List.Perm.flatMap_left _ fun p _ => templatePaths_partOf_perm p (ofPart rs p)

theorem part_names (strict : Bool) (rs : List Record) :
    (feed strict rs).finish.parts.map (·.name) = (rs.map (·.part)).eraseDups := by
  rw [finish_feed]
  simp [Manifest.ofParts, partOf, Function.comp_def]

theorem component_names (p : String) (own : List Record) :
    (partOf p own).components.map (·.name) = (own.map (·.component)).eraseDups := by
  have hname : ∀ c, (componentOf c (ofComponent own c)).name = c :=
    fun c => ComponentState.gathered_name c _
  simp [partOf, Function.comp_def, hname]

theorem exists_record_of_name {strict : Bool} {rs : List Record} {p : Part}
    (h : p ∈ (feed strict rs).finish.parts) :
    (∃ r ∈ rs, r.part = p.name) ∧ ∀ c ∈ p.components, ∃ r ∈ rs, r.component = c.name := by
  obtain ⟨hname, hpart⟩ := mem_parts_finish h
  refine ⟨List.mem_map.1 hname, fun c hc => ?_⟩
  rw [hpart] at hc
  obtain ⟨r, hr, hcomponent⟩ := List.mem_map.1 (mem_components_partOf hc).1
  exact ⟨r, List.mem_of_mem_filter hr, hcomponent⟩

theorem lookup_of_nodup {β : Type} (name : β → String) {xs : List β} (h : (xs.map name).Nodup)
    {n : String} (hn : n ∈ xs.map name) :
    ∃ x, xs.filter (fun y => name y = n) = [x] ∧ xs.find? (fun y => name y == n) = some x := by
  induction xs with
  | nil => simp at hn
  | cons x xs ih =>
    obtain ⟨hx, hnd⟩ := List.nodup_cons.1 h
    by_cases e : name x = n
    · refine ⟨x, ?_, by simp [e]⟩
      have hrest : xs.filter (fun y => decide (name y = n)) = [] := by
        rw [List.filter_eq_nil_iff]
        intro y hy hyn
        exact hx (List.mem_map.2 ⟨y, hy, by rw [e]; simpa using hyn⟩)
      simp [e, hrest]
    · have hmem : n ∈ xs.map name := by
        rw [List.map_cons, List.mem_cons] at hn
        rcases hn with hn | hn
        · exact absurd hn.symm e
        · exact hn
      obtain ⟨y, hfilter, hfind⟩ := ih hnd hmem
      exact ⟨y, by simp [e, hfilter], by simp [e, hfind]⟩

/-- The entry of a record: the only part of its name and the only component of its name there. -/
theorem lookup_record (strict : Bool) {rs : List Record} {r : Record} (hr : r ∈ rs) :
    ∃ p c, (feed strict rs).finish.parts.filter (fun q => q.name = r.part) = [p] ∧
      (feed strict rs).finish.part? r.part = some p ∧
      p.components.filter (fun d => d.name = r.component) = [c] ∧
      p.component? r.component = some c ∧ r.id ∈ c.templatePaths := by
  have hparts := part_names strict rs
  obtain ⟨p, hp, hpfind⟩ := lookup_of_nodup Part.name (hparts ▸ nodup_eraseDups _)
    (by rw [hparts, List.mem_eraseDups]; exact List.mem_map.2 ⟨r, hr, rfl⟩)
  have hmem : p ∈ (feed strict rs).finish.parts := List.mem_of_find?_eq_some hpfind
  have hname : p.name = r.part := by simpa using List.find?_some hpfind
  obtain ⟨-, hpart⟩ := mem_parts_finish hmem
  have hown : r ∈ ofPart rs p.name := by simp [ofPart, hr, hname]
  have hcomps : p.components.map (·.name) =
      ((ofPart rs p.name).map (·.component)).eraseDups := by
    rw [hpart]; exact component_names _ _
  obtain ⟨c, hc, hcfind⟩ := lookup_of_nodup Component.name (hcomps ▸ nodup_eraseDups _)
    (by rw [hcomps, List.mem_eraseDups]; exact List.mem_map.2 ⟨r, hown, rfl⟩)
  refine ⟨p, c, hp, hpfind, hc, hcfind, ?_⟩
  have hcmem : c ∈ (partOf p.name (ofPart rs p.name)).components :=
    hpart ▸ List.mem_of_find?_eq_some hcfind
  have hcname : c.name = r.component := by simpa using List.find?_some hcfind
  obtain ⟨-, hcomp⟩ := mem_components_partOf hcmem
  rw [hcomp, (templatePaths_componentOf_perm _ _).mem_iff]
  exact List.mem_map.2 ⟨r, by simp [ofComponent, hown, hcname], rfl⟩

/-- Grouping by first occurrence. In either mode, with adding continued after every step, both
levels of indices hold the position of each entry and no other, and the manifest has the part names
of the records without later repeats, each part the component names of its records in the same way,
and each component the templates of its records, split by what they declare for themselves. Every
record is listed once, and both lookups find its only entry. -/
theorem finish_groups (strict : Bool) (rs : List Record) :
    let h := feed strict rs
    let m := h.finish
    Positions (h.parts.map (·.name)) h.index ∧
    (∀ p ∈ h.parts, Positions (p.components.map (·.name)) p.index) ∧
    m.parts.map (·.name) = (rs.map (·.part)).eraseDups ∧
    (∀ p ∈ m.parts,
      p.components.map (·.name) = ((ofPart rs p.name).map (·.component)).eraseDups ∧
      ∀ c ∈ p.components,
        let own := ofComponent (ofPart rs p.name) c.name
        c.requiredTemplates =
          (own.filter fun r => r.directives.templateRequirement ≠ some .optional).map (·.id) ∧
        c.optionalTemplates =
          (own.filter fun r => r.directives.templateRequirement = some .optional).map (·.id)) ∧
    m.templatePaths.Perm (rs.map (·.id)) ∧
    m.templateCount = rs.length ∧
    ∀ r ∈ rs, ∃ p c, m.parts.filter (fun q => q.name = r.part) = [p] ∧
      m.part? r.part = some p ∧ p.components.filter (fun d => d.name = r.component) = [c] ∧
      p.component? r.component = some c ∧ r.id ∈ c.templatePaths := by
  intro h m
  obtain ⟨hparts, hcomponents⟩ := feed_indexed strict rs
  refine ⟨hparts, hcomponents, part_names strict rs, ?_, templatePaths_perm strict rs, ?_,
    fun r hr => lookup_record strict hr⟩
  · intro p hp
    obtain ⟨-, hpart⟩ := mem_parts_finish hp
    refine ⟨by rw [hpart]; exact component_names _ _, ?_⟩
    intro c hc own
    rw [hpart] at hc
    obtain ⟨-, hcomp⟩ := mem_components_partOf hc
    rw [hcomp]
    exact ⟨ComponentState.gathered_requiredTemplates _ _,
      ComponentState.gathered_optionalTemplates _ _⟩
  · have hlen := (templatePaths_perm strict rs).length_eq
    rwa [List.length_map] at hlen

end Hierarchy
end RefManifest
