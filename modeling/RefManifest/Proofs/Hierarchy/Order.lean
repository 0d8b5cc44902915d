import Mathlib.Data.List.Perm.Basic
import RefManifest.Proofs.Hierarchy.Conflict

/-!
# RefManifest.Proofs.Hierarchy.Order

What does not depend on the order in which the templates are found.

The order of the records decides in which order names and templates are listed, which record starts
a conflict, and which declaration decides once there is one. Everything else is read off the records
of a component as a multiset: a place is conflicted exactly if its records contest it
(`mem_conflictedPlaces`), and its status is their verdict until then. So other orders lead to the
same places, the same conflicts and the same number of errors (`feed_perm`).
-/

namespace RefManifest

/-- The part and the name of each component of the manifest. -/
def Manifest.places (m : Manifest) : List (String × String) :=
  m.parts.flatMap fun p => p.components.map fun c => (p.name, c.name)

namespace Hierarchy

/-- The part and the name of each component that is in conflict. -/
def conflictedPlaces (h : Hierarchy) : List (String × String) :=
  h.parts.flatMap fun p => (p.components.filter (·.conflicted)).map fun c => (p.name, c.name)

variable {strict : Bool} {rs rs' own own' : List Record} {p p' : Part} {c c' : Component}

theorem eraseDups_perm {α : Type} [BEq α] [LawfulBEq α] {ks ks' : List α} (h : ks.Perm ks') :
    ks.eraseDups.Perm ks'.eraseDups := by
  rw [List.perm_ext_iff_of_nodup (nodup_eraseDups ks) (nodup_eraseDups ks')]
  intro k
  rw [List.mem_eraseDups, List.mem_eraseDups, h.mem_iff]

theorem ownRecords_perm (h : rs.Perm rs') (place : String × String) :
    (ownRecords rs place).Perm (ownRecords rs' place) :=
  (h.filter _).filter _

theorem contested_perm (h : own.Perm own') : Contested own ↔ Contested own' := by
  simp only [Contested, h.mem_iff]

/-- Of places in another order, the same ones are contested. -/
theorem filter_contested_perm {places places' : List (String × String)}
    (hplaces : places.Perm places') (h : rs.Perm rs') :
    (places.filter fun place => Contested (ownRecords rs place)).Perm
      (places'.filter fun place => Contested (ownRecords rs' place)) := by
  have hsame : ∀ place, decide (Contested (ownRecords rs place)) =
      decide (Contested (ownRecords rs' place)) :=
    fun place => decide_eq_decide.2 (contested_perm (ownRecords_perm h place))
  rw [List.filter_congr fun place _ => hsame place]
  exact hplaces.filter _

theorem requiredTemplates_perm (c : String) (h : own.Perm own') :
    (componentOf c own).requiredTemplates.Perm (componentOf c own').requiredTemplates := by
  simp only [componentOf, ComponentState.toComponent, ComponentState.gathered_requiredTemplates]
  exact (h.filter _).map _

theorem optionalTemplates_perm (c : String) (h : own.Perm own') :
    (componentOf c own).optionalTemplates.Perm (componentOf c own').optionalTemplates := by
  simp only [componentOf, ComponentState.toComponent, ComponentState.gathered_optionalTemplates]
  exact (h.filter _).map _

theorem requirement_perm (c : String) (h : own.Perm own') (hcontested : ¬ Contested own) :
    (componentOf c own).requirement = (componentOf c own').requirement := by
  have hcontested' : ¬ Contested own' := fun hc => hcontested ((contested_perm h).2 hc)
  rw [requirement_of_not_contested c hcontested, requirement_of_not_contested c hcontested',
    h.any_eq, h.any_eq]

theorem places_finish (strict : Bool) (rs : List Record) :
    (feed strict rs).finish.places =
      (rs.map (·.part)).eraseDups.flatMap fun p =>
        ((ofPart rs p).map (·.component)).eraseDups.map fun c => (p, c) := by
  have hname : ∀ c own, (componentOf c own).name = c := ComponentState.gathered_name
  rw [finish_feed, Manifest.places, Manifest.ofParts, List.flatMap_map]
  simp only [partOf, List.map_map, Function.comp_def, hname]

theorem places_perm (strict : Bool) (h : rs.Perm rs') :
    (feed strict rs).finish.places.Perm (feed strict rs').finish.places := by
  rw [places_finish, places_finish]
  exact (eraseDups_perm (h.map _)).flatMap fun p _ =>
    (eraseDups_perm ((h.filter _).map _)).map fun c => (p, c)

theorem conflictedPlaces_feed (strict : Bool) (rs : List Record) :
    (feed strict rs).conflictedPlaces =
      (feed strict rs).finish.places.filter fun place => Contested (ownRecords rs place) := by
  have hconflicted : ∀ c own, (ComponentState.gathered c own).conflicted =
      decide (Contested own) := by
    intro c own
    rw [Bool.eq_iff_iff, conflicted_iff, decide_eq_true_iff]
  rw [places_finish, List.filter_flatMap, conflictedPlaces, feed_parts, PartState.grouped,
    List.flatMap_map]
  simp only [PartState.gathered_name, PartState.gathered_components, ComponentState.grouped,
    List.filter_map, List.map_map, Function.comp_def, ComponentState.gathered_name, hconflicted,
    ownRecords]
  rfl

theorem mem_conflictedPlaces (hp : p ∈ (feed strict rs).finish.parts) (hc : c ∈ p.components) :
    (p.name, c.name) ∈ (feed strict rs).conflictedPlaces ↔
      Contested (ownRecords rs (p.name, c.name)) := by
  have hplace : (p.name, c.name) ∈ (feed strict rs).finish.places :=
    List.mem_flatMap.2 ⟨p, hp, List.mem_map_of_mem hc⟩
  simp only [conflictedPlaces_feed, List.mem_filter, hplace, true_and, decide_eq_true_iff]

theorem conflictedPlaces_perm (strict : Bool) (h : rs.Perm rs') :
    (feed strict rs).conflictedPlaces.Perm (feed strict rs').conflictedPlaces := by
  rw [conflictedPlaces_feed, conflictedPlaces_feed]
  exact filter_contested_perm (places_perm strict h) h

theorem errorCount_perm (strict : Bool) (h : rs.Perm rs') :
    (feed strict rs).errorCount = (feed strict rs').errorCount := by
  cases strict with
  | false =>
    rw [errorCount_feed_lenient, errorCount_feed_lenient]
    exact (filter_contested_perm (eraseDups_perm (h.map placeOf)) h).length_eq
  | true => rw [errorCount_feed_strict, errorCount_feed_strict]

/-- Templates that are found in another order. The manifest has the same parts and components, a
component lists the same templates, the same components are in conflict, and the same number of
errors is counted. A component that is not in conflict has the same status as well. -/
theorem feed_perm (strict : Bool) (h : rs.Perm rs') :
    (feed strict rs).finish.places.Perm (feed strict rs').finish.places ∧
    (∀ p ∈ (feed strict rs).finish.parts, ∀ c ∈ p.components,
      ∀ p' ∈ (feed strict rs').finish.parts, ∀ c' ∈ p'.components,
        p'.name = p.name → c'.name = c.name →
          c.requiredTemplates.Perm c'.requiredTemplates ∧
          c.optionalTemplates.Perm c'.optionalTemplates ∧
          ((p.name, c.name) ∉ (feed strict rs).conflictedPlaces →
            c.requirement = c'.requirement)) ∧
    (feed strict rs).conflictedPlaces.Perm (feed strict rs').conflictedPlaces ∧
    (feed strict rs).errorCount = (feed strict rs').errorCount := by
  refine ⟨places_perm strict h, ?_, conflictedPlaces_perm strict h, errorCount_perm strict h⟩
  intro p hp c hc p' hp' c' hc' hpart hcomponent
  have hown := ownRecords_perm h (p.name, c.name)
  have hcomp : c = componentOf c.name (ownRecords rs (p.name, c.name)) :=
    mem_components_finish hp hc
  have hcomp' : c' = componentOf c.name (ownRecords rs' (p.name, c.name)) := by
    have hmade := mem_components_finish hp' hc'
    rwa [hpart, hcomponent] at hmade
  refine ⟨?_, ?_, fun hquiet => ?_⟩
  · rw [hcomp, hcomp']
    exact requiredTemplates_perm _ hown
  · rw [hcomp, hcomp']
    exact optionalTemplates_perm _ hown
  · rw [mem_conflictedPlaces hp hc] at hquiet
    rw [hcomp, hcomp']
    exact requirement_perm _ hown hquiet

/-- The records of a conflict the other way round, with the one of another part in between. -/
theorem feed_perm_contradiction :
    contradiction.Perm contradiction.reverse ∧
      (feed false contradiction).conflictedPlaces.Perm
        (feed false contradiction.reverse).conflictedPlaces ∧
      (feed false contradiction).conflictedPlaces = [("core", "dns")] ∧
      (feed false contradiction).finish ≠ (feed false contradiction.reverse).finish := by
  have hperm : contradiction.Perm contradiction.reverse := (List.reverse_perm _).symm
  obtain ⟨-, -, hconflicts, -⟩ := feed_perm false hperm
  exact ⟨hperm, hconflicts, by decide, by decide⟩

end Hierarchy
end RefManifest
