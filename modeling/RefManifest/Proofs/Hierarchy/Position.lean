import Mathlib.Data.List.Nodup
import RefManifest.Hierarchy

/-!
# RefManifest.Proofs.Hierarchy.Position

The indices are never stale: at both levels, and after any records, the index holds the position
of the entry of each name and no other position (`Positions`).

* `fileIn_cases`: the step at either level. It changes the only entry of the name, or adds one.
* `Positions.fileIn`: the step keeps the index in order.
* `Hierarchy.add_indexed`: so does adding a record, whatever it answers.
-/

namespace RefManifest

/-- An index that holds the position of each of the names, and no other position. -/
def Positions (names : List String) (index : Index) : Prop :=
  ∀ n i, index.lookup n = some i ↔ names[i]? = some n

namespace Positions

variable {names : List String} {index : Index} {n : String}

theorem nil : Positions [] [] := by
  intro n i
  simp

theorem lookup_eq_none (h : Positions names index) : index.lookup n = none ↔ n ∉ names := by
  rw [List.mem_iff_getElem?, not_exists, Option.eq_none_iff_forall_ne_some]
  exact forall_congr' fun i => not_congr (h n i)

/-- No name has two positions. -/
theorem unique (h : Positions names index) {i j : Nat} (hi : names[i]? = some n)
    (hj : names[j]? = some n) : i = j := by
  rw [← h] at hi hj
  exact Option.some.inj (hi.symm.trans hj)

theorem concat (h : Positions names index) (hn : n ∉ names) :
    Positions (names ++ [n]) ((n, names.length) :: index) := by
  intro k i
  rw [List.lookup_cons]
  by_cases hk : k = n
  · subst hk
    have hold : names[i]? ≠ some k := fun e => hn (List.mem_of_getElem? e)
    grind
  · have hne : (k == n) = false := by simpa using hk
    rw [hne]
    simp only [h k i]
    grind

end Positions

section Filing

variable {α : Type} {name : α → String} {n : String} {fresh : α} {change : α → α × Bool}
  {entries : List α} {index : Index}

/-- Where the index is in order, filing under a name changes the entry at its position, or adds
one if no entry bears the name. -/
theorem fileIn_cases (h : Positions (entries.map name) index) (n : String) (fresh : α)
    (change : α → α × Bool) :
    (∃ i x, entries[i]? = some x ∧ name x = n ∧
      fileIn n fresh change entries index =
        (entries.set i (change x).1, index, (change x).2)) ∨
    (n ∉ entries.map name ∧
      fileIn n fresh change entries index =
        (entries ++ [(change fresh).1], (n, entries.length) :: index, (change fresh).2)) := by
  cases hlookup : index.lookup n with
  | some i =>
    have hname := (h n i).1 hlookup
    rw [List.getElem?_map, Option.map_eq_some_iff] at hname
    obtain ⟨x, hx, hname⟩ := hname
    exact .inl ⟨i, x, hx, hname, by simp [fileIn, positionIn, hlookup, hx]⟩
  | none =>
    exact .inr ⟨h.lookup_eq_none.1 hlookup, by simp [fileIn, positionIn, hlookup]⟩

/-- Filing keeps the index in order, if the change keeps the name of an entry. -/
theorem Positions.fileIn (h : Positions (entries.map name) index) (hfresh : name fresh = n)
    (hchange : ∀ x, name (change x).1 = name x) :
    Positions ((fileIn n fresh change entries index).1.map name)
      (fileIn n fresh change entries index).2.1 := by
  rcases fileIn_cases h n fresh change with ⟨i, x, hx, -, hfile⟩ | ⟨hnew, hfile⟩
  · have hname : (entries.map name).set i (name x) = entries.map name := by
      rw [← List.map_set]
      obtain ⟨hi, rfl⟩ := List.getElem?_eq_some_iff.1 hx
      rw [List.set_getElem_self]
    rw [hfile, List.map_set, hchange, hname]
    exact h
  · rw [hfile, List.map_append, List.map_singleton, hchange, hfresh]
    have hnext := h.concat hnew
    rwa [List.length_map] at hnext

theorem forall_mem_fileIn {P : α → Prop} (h : ∀ x ∈ entries, P x) (hfresh : P fresh)
    (hchange : ∀ x, P x → P (change x).1) (hindex : Positions (entries.map name) index) :
    ∀ x ∈ (fileIn n fresh change entries index).1, P x := by
  intro y hy
  rcases fileIn_cases hindex n fresh change with ⟨i, x, hx, -, hfile⟩ | ⟨-, hfile⟩
  · rw [hfile] at hy
    rcases List.mem_or_eq_of_mem_set hy with hy | rfl
    · exact h y hy
    · exact hchange x (h x (List.mem_of_getElem? hx))
  · rw [hfile, List.mem_append, List.mem_singleton] at hy
    rcases hy with hy | rfl
    · exact h y hy
    · exact hchange fresh hfresh

end Filing

theorem ComponentState.record_name (s : ComponentState) (r : Record) :
    (s.record r).name = s.name := rfl

namespace PartState

def Indexed (p : PartState) : Prop := Positions (p.components.map (·.name)) p.index

theorem start_indexed (n : String) : (start n).Indexed := Positions.nil

theorem record_name (p : PartState) (r : Record) : (p.record r).1.name = p.name := rfl

theorem record_indexed {p : PartState} (h : p.Indexed) (r : Record) : (p.record r).1.Indexed :=
  Positions.fileIn h rfl fun s => s.record_name r

end PartState

namespace Hierarchy

/-- The indices of the hierarchy and of each of its parts are in order. -/
def Indexed (h : Hierarchy) : Prop :=
  Positions (h.parts.map (·.name)) h.index ∧ ∀ p ∈ h.parts, p.Indexed

theorem start_indexed (strict : Bool) : (start strict).Indexed :=
  ⟨Positions.nil, fun _ hp => absurd hp List.not_mem_nil⟩

theorem record_errorCount (h : Hierarchy) (r : Record) :
    (h.record r).1.errorCount = h.errorCount := rfl

theorem record_indexed {h : Hierarchy} (hi : h.Indexed) (r : Record) :
    (h.record r).1.Indexed :=
  ⟨hi.1.fileIn rfl fun p => p.record_name r,
    forall_mem_fileIn hi.2 (PartState.start_indexed _)
      (fun _ hp => PartState.record_indexed hp r) hi.1⟩

theorem add_indexed {h : Hierarchy} (hi : h.Indexed) (r : Record) : (h.add r).1.Indexed := by
  have hnext := record_indexed hi r
  simp only [add]
  split
  · split
    · exact hnext
    · exact hnext
  · exact hnext

end Hierarchy
end RefManifest
