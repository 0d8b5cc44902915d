import Mathlib.Data.List.Nodup
import RefManifest.Proofs.Disk.Tree

/-!
# RefManifest.Proofs.Disk.Walk

What the walk through a tree meets, and in which order.

* `sortByName_perm`, `sortByName_pairwise`: the entries of a directory, put in order.
* `mem_walk`: every node of a valid tree, each with the names that lead to it.
* `walk_pairwise`: the names come in their order, none twice.
* `eq_of_sorted`: a list in that order is determined by its members.

So the walk depends on the nodes of the tree alone, not on how its directories list them.
-/

namespace RefManifest
namespace Disk
namespace Node

theorem insertByName_perm {α : Type} (e : Name × α) (xs : List (Name × α)) :
    (insertByName e xs).Perm (e :: xs) := by
  induction xs with
  | nil => exact .refl _
  | cons f rest ih =>
    rw [insertByName]
    split
    · exact .refl _
    · exact (ih.cons f).trans (.swap e f rest)

theorem sortByName_perm {α : Type} (xs : List (Name × α)) : (sortByName xs).Perm xs := by
  induction xs with
  | nil => exact .refl _
  | cons e rest ih => exact (insertByName_perm e _).trans (ih.cons e)

theorem mem_sortByName {α : Type} {xs : List (Name × α)} {e : Name × α} :
    e ∈ sortByName xs ↔ e ∈ xs :=
  (sortByName_perm xs).mem_iff

theorem insertByName_pairwise {α : Type} {e : Name × α} {xs : List (Name × α)}
    (hne : ∀ f ∈ xs, e.1 ≠ f.1) (h : xs.Pairwise fun a b => a.1 < b.1) :
    (insertByName e xs).Pairwise fun a b => a.1 < b.1 := by
  induction xs with
  | nil => exact List.pairwise_singleton _ _
  | cons f rest ih =>
    obtain ⟨hf, hrest⟩ := List.pairwise_cons.1 h
    rw [insertByName]
    split
    case isTrue hle =>
      have hlt : e.1 < f.1 := Std.lt_of_le_of_ne hle (hne f List.mem_cons_self)
      refine List.pairwise_cons.2 ⟨fun g hg => ?_, h⟩
      rcases List.mem_cons.1 hg with rfl | hg
      · exact hlt
      · exact Std.lt_trans hlt (hf g hg)
    case isFalse hle =>
      have hlt : f.1 < e.1 := Std.not_le.1 hle
      refine List.pairwise_cons.2 ⟨fun g hg => ?_, ih (fun g hg => hne g (.tail _ hg)) hrest⟩
      rcases List.mem_cons.1 ((insertByName_perm e rest).mem_iff.1 hg) with rfl | hg
      · exact hlt
      · exact hf g hg

theorem sortByName_pairwise {α : Type} {xs : List (Name × α)} (h : (xs.map (·.1)).Nodup) :
    (sortByName xs).Pairwise fun a b => a.1 < b.1 := by
  induction xs with
  | nil => exact .nil
  | cons e rest ih =>
    rw [List.map_cons, List.nodup_cons] at h
    refine insertByName_pairwise (fun f hf heq => h.1 ?_) (ih h.2)
    exact List.mem_map.2 ⟨f, mem_sortByName.1 hf, heq.symm⟩

theorem mem_walkEntries {es : List (Name × Node)} {n : Name} {l : List (List Name × Node)} :
    (n, l) ∈ walkEntries es ↔ ∃ y, (n, y) ∈ es ∧ l = y.walk := by
  induction es with
  | nil => simp [walkEntries]
  | cons e es ih =>
    obtain ⟨m, x⟩ := e
    simp only [walkEntries, List.mem_cons, Prod.mk.injEq, ih]
    constructor
    · rintro (⟨rfl, rfl⟩ | ⟨y, hy, rfl⟩)
      · exact ⟨x, .inl ⟨rfl, rfl⟩, rfl⟩
      · exact ⟨y, .inr hy, rfl⟩
    · rintro ⟨y, ⟨rfl, rfl⟩ | hy, rfl⟩
      · exact .inl ⟨rfl, rfl⟩
      · exact .inr ⟨y, hy, rfl⟩

theorem map_fst_walkEntries (es : List (Name × Node)) :
    (walkEntries es).map (·.1) = es.map (·.1) := by
  induction es with
  | nil => rfl
  | cons e es ih => simp [walkEntries, ih]

theorem mem_walk_dir {es : List (Name × Node)} {n : Name} {rest : List Name} {y : Node} :
    (n :: rest, y) ∈ (Node.dir es).walk ↔ ∃ z, (n, z) ∈ es ∧ (rest, y) ∈ z.walk := by
  simp only [walk, List.mem_cons, Prod.mk.injEq, List.cons_ne_nil, false_and, false_or,
    List.mem_flatMap, List.mem_map, Prod.exists, mem_sortByName, mem_walkEntries]
  constructor
  · rintro ⟨m, l, ⟨z, hz, rfl⟩, names, y', hmem, hcons, rfl⟩
    cases hcons
    exact ⟨z, hz, hmem⟩
  · rintro ⟨z, hz, hmem⟩
    exact ⟨n, z.walk, ⟨z, hz, rfl⟩, rest, y, hmem, rfl, rfl⟩

theorem mem_walk {x : Node} (hx : x.Valid) {names : List Name} {y : Node} :
    (names, y) ∈ x.walk ↔ x.get? names = some y := by
  induction names generalizing x with
  | nil => cases x <;> simp [walk, get?, eq_comm]
  | cons n rest ih =>
    rw [get?_cons_eq_some]
    cases x with
    | file c => simp [walk]
    | link t => simp [walk]
    | dir es =>
      obtain ⟨hnd, hes⟩ := valid_dir_iff.1 hx
      rw [mem_walk_dir]
      constructor
      · rintro ⟨z, hz, hmem⟩
        exact ⟨es, z, rfl, (lookup_eq_some_iff_mem hnd).2 hz, (ih (hes _ hz).2).1 hmem⟩
      · rintro ⟨_, z, ⟨⟩, hz, hget⟩
        have hmem := mem_of_lookup hz
        exact ⟨z, hmem, (ih (hes _ hmem).2).2 hget⟩

mutual

theorem walk_pairwise : ∀ x : Node, x.Valid → x.walk.Pairwise fun a b => a.1 < b.1
  | .file c, _ => by simp [walk]
  | .link t, _ => by simp [walk]
  | .dir es, h => by
    rw [Valid] at h
    have hbelow := walkEntries_pairwise es h.2
    have hsorted := sortByName_pairwise (by rw [map_fst_walkEntries]; exact h.1)
    rw [walk, List.pairwise_cons, List.pairwise_flatMap]
    refine ⟨fun e he => ?_, fun e he => ?_, hsorted.imp fun {a b} hab f hf g hg => ?_⟩
    · obtain ⟨e', -, he'⟩ := List.mem_flatMap.1 he
      obtain ⟨f, -, rfl⟩ := List.mem_map.1 he'
      exact List.nil_lt_cons ..
    · refine List.pairwise_map.2 ((hbelow e (mem_sortByName.1 he)).imp fun {a b} hab => ?_)
      exact List.cons_lt_cons_iff.2 (.inr ⟨rfl, hab⟩)
    · obtain ⟨f', -, rfl⟩ := List.mem_map.1 hf
      obtain ⟨g', -, rfl⟩ := List.mem_map.1 hg
      exact List.cons_lt_cons_iff.2 (.inl hab)

theorem walkEntries_pairwise : ∀ es : List (Name × Node), ValidEntries es →
    ∀ e ∈ walkEntries es, e.2.Pairwise fun a b => a.1 < b.1
  | [], _ => by simp [walkEntries]
  | (n, x) :: rest, h => by
    rw [ValidEntries] at h
    intro e he
    rw [walkEntries, List.mem_cons] at he
    rcases he with rfl | he
    · exact walk_pairwise x h.2.1
    · exact walkEntries_pairwise rest h.2.2 e he

end

theorem nodup_of_sorted {α : Type} (names : α → List Name) {l : List α}
    (h : l.Pairwise fun s t => names s < names t) : (l.map names).Nodup := by
  rw [List.nodup_iff_pairwise_ne, List.pairwise_map]
  refine h.imp fun {s t} hlt heq => ?_
  rw [heq] at hlt
  exact List.lt_irrefl _ hlt

/-- Lists in the order of the names are equal if they have the same members. -/
theorem eq_of_sorted {α : Type} (names : α → List Name) {a b : List α}
    (ha : a.Pairwise fun s t => names s < names t) (hb : b.Pairwise fun s t => names s < names t)
    (h : ∀ t, t ∈ a ↔ t ∈ b) : a = b := by
  have hperm : a.Perm b := (List.perm_ext_iff_of_nodup (nodup_of_sorted names ha).of_map
    (nodup_of_sorted names hb).of_map).2 h
  refine hperm.eq_of_pairwise (fun s t _ _ hst hts => ?_) ha hb
  exact absurd hts (List.lt_asymm hst)

end Node
end Disk
end RefManifest
