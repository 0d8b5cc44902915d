import Mathlib.Algebra.Order.BigOperators.Group.Finset
import Mathlib.Algebra.GroupWithZero.Nat
import RefManifest.Proofs.Hierarchy.Component

/-!
# RefManifest.Proofs.Hierarchy.Growth

A manifest of more records has a longer text.

A `Gauge` measures a manifest from its templates up: each template has a weight, a component one
that depends on its name and the weights of its two lists, and so on. The status of a component
has no say, since its two labels are equally long. All that a text format has to show is that its
length is measured in this way.

* `sum_groups_insert`: one more record makes the sum over all groups larger, whether it opens a
  group or joins one.
* `Gauge.lt_of_sublist`: the manifest of some of the records weighs less than that of all.
-/

namespace RefManifest
namespace Hierarchy

open Finset

section Groups

variable (key : Record → String) (f : String → List Record → Nat)

/-- The sum over the keys of the records. -/
def sumGroups (rs : List Record) : Nat := ∑ k ∈ (rs.map key).toFinset, f k (under key k rs)

theorem sum_eraseDups (rs : List Record) :
    (((rs.map key).eraseDups.map fun k => f k (under key k rs)).sum) = sumGroups key f rs := by
  have hset : (rs.map key).toFinset = (rs.map key).eraseDups.toFinset := by
    ext k
    simp [List.mem_eraseDups]
  rw [sumGroups, hset, List.sum_toFinset _ (nodup_eraseDups _)]

theorem under_insert_self (a b : List Record) (r : Record) :
    under key (key r) (a ++ r :: b) = under key (key r) a ++ r :: under key (key r) b := by
  simp [under]

theorem under_insert_of_ne {k : String} (a b : List Record) {r : Record} (h : k ≠ key r) :
    under key k (a ++ r :: b) = under key k (a ++ b) := by
  have hne : ¬ key r = k := fun e => h e.symm
  simp [under, hne]

/-- One more record makes the sum larger, if it makes the weight of its own group larger. -/
theorem sum_groups_insert (a b : List Record) (r : Record)
    (hgrow : f (key r) (under key (key r) (a ++ b)) + 2 ≤
      f (key r) (under key (key r) (a ++ r :: b))) :
    sumGroups key f (a ++ b) + 2 ≤ sumGroups key f (a ++ r :: b) := by
  have hkeys : ((a ++ r :: b).map key).toFinset = insert (key r) ((a ++ b).map key).toFinset := by
    ext k
    simp only [List.map_append, List.map_cons, List.mem_toFinset, List.mem_append, List.mem_cons,
      mem_insert]
    tauto
  have hothers : ∀ s : Finset String, key r ∉ s →
      ∑ k ∈ s, f k (under key k (a ++ r :: b)) = ∑ k ∈ s, f k (under key k (a ++ b)) := by
    intro s hs
    refine sum_congr rfl fun k hk => ?_
    rw [under_insert_of_ne key a b fun e => hs (e ▸ hk)]
  rw [sumGroups, sumGroups, hkeys]
  -- The group of `r` is there already, or it is new and nothing was summed for it.
  by_cases hmem : key r ∈ ((a ++ b).map key).toFinset
  · rw [insert_eq_of_mem hmem, ← add_sum_erase _ _ hmem, ← add_sum_erase _ _ hmem,
      hothers _ (notMem_erase _ _)]
    omega
  · rw [sum_insert hmem, hothers _ hmem]
    omega

/-- A sum over groups that are not all missing is as large as the least weight of a group. -/
theorem le_sumGroups {m : Nat} (hm : ∀ k own, m ≤ f k own) (a b : List Record) (r : Record) :
    m ≤ sumGroups key f (a ++ r :: b) := by
  have hmem : key r ∈ ((a ++ r :: b).map key).toFinset := by simp
  rw [sumGroups, ← add_sum_erase _ _ hmem]
  have := hm (key r) (under key (key r) (a ++ r :: b))
  omega

end Groups

/-! ## Gauges -/

/-- The length of a list whose members take `n` together: `empty` stands for a list without
members, and `base` is what surrounds the members of any other. -/
def listLength (empty base n : Nat) : Nat := if n = 0 then empty else base + n

theorem listLength_of_pos {empty base n : Nat} (h : 0 < n) :
    listLength empty base n = base + n := if_neg (by omega)

theorem listLength_grows {empty base m n : Nat} (h : m + 2 ≤ n) (hn : empty + 2 ≤ base + n) :
    listLength empty base m + 2 ≤ listLength empty base n := by
  have hlarge : listLength empty base n = base + n := listLength_of_pos (by omega)
  rw [hlarge, listLength]
  split
  · exact hn
  · omega

/-- A list with one member for each group grows with every record, also when it was empty. -/
theorem listLength_groups_insert (key : Record → String) (f : String → List Record → Nat)
    {empty base : Nat} (hempty : empty < base + 4) (hfive : ∀ k own, 5 ≤ f k own)
    (a b : List Record) (r : Record)
    (hgrow : ∀ own own', f (key r) (own ++ own') + 2 ≤ f (key r) (own ++ r :: own')) :
    listLength empty base (sumGroups key f (a ++ b)) + 2 ≤
      listLength empty base (sumGroups key f (a ++ r :: b)) := by
  have hsum := sum_groups_insert key f a b r
    (by rw [under_insert_self, under, List.filter_append]; exact hgrow _ _)
  have hleast := le_sumGroups key f hfive a b r
  exact listLength_grows hsum (by omega)

/-- How the length of a text of the manifest comes about: what a part, a component and a template
take by themselves, and what surrounds the lists of each. A list of templates is left out when it
is empty. -/
structure Gauge where
  head : Nat
  part : String → Nat
  component : String → Nat
  template : String → Nat
  empty : Nat
  aroundParts : Nat
  aroundComponents : Nat
  aroundTemplates : Nat
  five_le_part : ∀ p, 5 ≤ part p
  five_le_component : ∀ c, 5 ≤ component c
  two_le_template : ∀ t, 2 ≤ template t
  empty_lt_parts : empty < aroundParts + 4
  empty_lt_components : empty < aroundComponents + 4

namespace Gauge

variable (γ : Gauge)

def ofTemplates (ids : List String) : Nat :=
  listLength 0 γ.aroundTemplates (ids.map γ.template).sum

def ofComponent (c : Component) : Nat :=
  γ.component c.name + (γ.ofTemplates c.requiredTemplates + γ.ofTemplates c.optionalTemplates)

def ofPart (p : Part) : Nat :=
  γ.part p.name + listLength γ.empty γ.aroundComponents (p.components.map γ.ofComponent).sum

def ofManifest (m : Manifest) : Nat :=
  γ.head + listLength γ.empty γ.aroundParts (m.parts.map γ.ofPart).sum

theorem ofTemplates_insert (a b : List String) (t : String) :
    γ.ofTemplates (a ++ b) + 2 ≤ γ.ofTemplates (a ++ t :: b) := by
  have := γ.two_le_template t
  refine listLength_grows ?_ ?_
  · simp only [List.map_append, List.map_cons, List.sum_append, List.sum_cons]
    omega
  · simp only [List.map_append, List.map_cons, List.sum_append, List.sum_cons]
    omega

theorem five_le_ofComponent (c : Component) : 5 ≤ γ.ofComponent c :=
  (γ.five_le_component c.name).trans (Nat.le_add_right ..)

theorem five_le_ofPart (p : Part) : 5 ≤ γ.ofPart p :=
  (γ.five_le_part p.name).trans (Nat.le_add_right ..)

theorem ofComponent_componentOf (c : String) (own : List Record) :
    γ.ofComponent (componentOf c own) =
      γ.component c +
        (γ.ofTemplates
            ((own.filter fun r => r.directives.templateRequirement ≠ some .optional).map (·.id)) +
          γ.ofTemplates
            ((own.filter fun r => r.directives.templateRequirement = some .optional).map
              (·.id))) := by
  simp only [ofComponent, componentOf, ComponentState.toComponent, ComponentState.gathered_name,
    ComponentState.gathered_requiredTemplates, ComponentState.gathered_optionalTemplates]

/-- The record is listed in one of the two lists. -/
theorem ofComponent_insert (c : String) (a b : List Record) (r : Record) :
    γ.ofComponent (componentOf c (a ++ b)) + 2 ≤ γ.ofComponent (componentOf c (a ++ r :: b)) := by
  rw [ofComponent_componentOf, ofComponent_componentOf]
  -- One of the two lists gets the record, the other one stays.
  by_cases h : r.directives.templateRequirement = some .optional
  · simp only [List.filter_append, List.filter_cons, h, ne_eq, not_true_eq_false, decide_false,
      decide_true, if_true, Bool.false_eq_true, if_false, List.map_append, List.map_cons]
    rw [add_assoc, add_assoc]
    gcongr
    exact γ.ofTemplates_insert _ _ _
  · simp only [List.filter_append, List.filter_cons, h, ne_eq, not_false_eq_true, decide_false,
      decide_true, if_true, Bool.false_eq_true, if_false, List.map_append, List.map_cons]
    rw [add_assoc, add_right_comm]
    gcongr
    exact γ.ofTemplates_insert _ _ _

theorem ofPart_partOf (p : String) (own : List Record) :
    γ.ofPart (partOf p own) =
      γ.part p + listLength γ.empty γ.aroundComponents
        (sumGroups (·.component) (fun c rs => γ.ofComponent (componentOf c rs)) own) := by
  rw [ofPart, ← sum_eraseDups]
  simp only [partOf, List.map_map]
  rfl

theorem ofPart_insert (p : String) (a b : List Record) (r : Record) :
    γ.ofPart (partOf p (a ++ b)) + 2 ≤ γ.ofPart (partOf p (a ++ r :: b)) := by
  rw [ofPart_partOf, ofPart_partOf, add_assoc]
  gcongr
  exact listLength_groups_insert _ _ γ.empty_lt_components
    (fun c own => γ.five_le_ofComponent (componentOf c own)) a b r
    (fun own own' => γ.ofComponent_insert r.component own own' r)

theorem ofManifest_finish (strict : Bool) (rs : List Record) :
    γ.ofManifest (feed strict rs).finish =
      γ.head + listLength γ.empty γ.aroundParts
        (sumGroups (·.part) (fun p own => γ.ofPart (partOf p own)) rs) := by
  rw [ofManifest, finish_feed, ← sum_eraseDups]
  simp only [Manifest.ofParts, List.map_map]
  rfl

theorem ofManifest_insert (strict : Bool) (a b : List Record) (r : Record) :
    γ.ofManifest (feed strict (a ++ b)).finish + 2 ≤
      γ.ofManifest (feed strict (a ++ r :: b)).finish := by
  rw [ofManifest_finish, ofManifest_finish, add_assoc]
  gcongr
  exact listLength_groups_insert _ _ γ.empty_lt_parts
    (fun p own => γ.five_le_ofPart (partOf p own)) a b r
    (fun own own' => γ.ofPart_insert r.part own own' r)

theorem le_of_sublist (strict : Bool) {rs rs' : List Record} (h : rs'.Sublist rs)
    (before : List Record) :
    γ.ofManifest (feed strict (before ++ rs')).finish +
        2 * (rs.length - rs'.length) ≤
      γ.ofManifest (feed strict (before ++ rs)).finish := by
  induction h generalizing before with
  | slnil => simp
  | @cons rs' rs r hsub ih =>
    have hinsert := γ.ofManifest_insert strict before rs r
    have hlen := hsub.length_le
    have := ih before
    rw [List.length_cons]
    omega
  | @cons_cons rs' rs r hsub ih =>
    -- A record of both lists goes over to those in front.
    have := ih (before ++ [r])
    simp only [List.append_assoc, List.cons_append, List.nil_append] at this
    simp only [List.length_cons, Nat.add_sub_add_right]
    exact this

theorem lt_of_sublist (strict : Bool) {rs rs' : List Record} (h : rs'.Sublist rs)
    (hlen : rs'.length < rs.length) :
    γ.ofManifest (feed strict rs').finish + 2 ≤ γ.ofManifest (feed strict rs).finish := by
  have := γ.le_of_sublist strict h []
  simp only [List.nil_append] at this
  omega

end Gauge
end Hierarchy
end RefManifest
