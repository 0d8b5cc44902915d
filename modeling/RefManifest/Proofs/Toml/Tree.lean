import Mathlib.Data.List.Nodup
import RefManifest.Toml.Reader

/-!
# RefManifest.Proofs.Toml.Tree

In a table that was read each name comes once.

A value is put under a name that is not there yet, and a table in the place of what has its name, if
there is something. So every change keeps the names of a table apart (`distinct_insert`,
`distinct_addTable`, `distinct_addElement`), and a text is read by one change after the other
(`distinct_of_parse?`).
-/

namespace RefManifest
namespace Toml

/-- Each name comes once. -/
def Distinct {α : Type} (t : List (List Char × α)) : Prop := (t.map (·.1)).Nodup

namespace Fields

variable {fs fs' : Fields} {name n : List Char} {x : Node} {key path : List (List Char)}
  {v : Value} {pairs : List (List (List Char) × Value)}

theorem mem_names_set : n ∈ (set name x fs).map (·.1) ↔ n = name ∨ n ∈ fs.map (·.1) := by
  induction fs with
  | nil => simp [set]
  | cons e fs ih =>
    obtain ⟨m, y⟩ := e
    by_cases h : m = name
    · simp [set, h]
    · simp only [set, h, if_false, List.map_cons, List.mem_cons, ih]
      exact or_left_comm

theorem distinct_set (h : Distinct fs) : Distinct (set name x fs) := by
  induction fs with
  | nil => simp [set, Distinct]
  | cons e fs ih =>
    obtain ⟨m, y⟩ := e
    obtain ⟨hm, hfs⟩ := List.nodup_cons.1 h
    by_cases hname : m = name
    · rw [set, if_pos hname]
      exact h
    · rw [set, if_neg hname]
      refine List.nodup_cons.2 ⟨?_, ih hfs⟩
      intro hmem
      exact (mem_names_set.1 hmem).elim hname hm

theorem distinct_of_map_set {α : Type} {new : Option α} {g : α → Node} (h : Distinct fs)
    (hset : new.map (fun a => set name (g a) fs) = some fs') : Distinct fs' := by
  obtain ⟨a, -, rfl⟩ := Option.map_eq_some_iff.1 hset
  exact distinct_set h

/-- A change further down leaves the names of the table; a change of the table itself is `f`. -/
theorem distinct_descend {byDots : Bool} {f : Origin → Fields → Option Fields} {origin : Origin}
    (h : Distinct fs) (hf : ∀ origin, f origin fs = some fs' → Distinct fs')
    (hd : descend byDots f origin path fs = some fs') : Distinct fs' := by
  cases path with
  | nil => exact hf origin hd
  | cons name path =>
    simp only [descend] at hd
    split at hd
    · exact distinct_of_map_set h hd
    · split at hd
      · cases hd
      · exact distinct_of_map_set h hd
    · exact distinct_of_map_set h hd
    · cases hd

theorem distinct_insert (h : Distinct fs) (hi : insert key v fs = some fs') : Distinct fs' := by
  refine distinct_descend h ?_ hi
  intro origin hput
  split at hput
  · cases hput
  · split at hput
    · cases hput
    · rename_i hnew
      cases hput
      rw [Bool.not_eq_true, Option.isSome_eq_false_iff, Option.isNone_iff_eq_none,
        List.lookup_eq_none_iff] at hnew
      have hfresh : (splitPath key).2 ∉ fs.map (·.1) := by
        intro hmem
        obtain ⟨e, he, heq⟩ := List.mem_map.1 hmem
        simpa [heq] using hnew e he
      rw [Distinct, List.map_append]
      exact List.Nodup.append h (List.nodup_singleton _) (List.disjoint_singleton.2 hfresh)

theorem distinct_insertAll (h : Distinct fs) (hi : insertAll pairs fs = some fs') :
    Distinct fs' := by
  induction pairs generalizing fs with
  | nil =>
    cases hi
    exact h
  | cons pair pairs ih =>
    rw [insertAll] at hi
    split at hi
    · cases hi
    · rename_i hnext
      exact ih (distinct_insert h hnext) hi

theorem distinct_addTable (h : Distinct fs) (ha : addTable key pairs fs = some fs') :
    Distinct fs' := by
  refine distinct_descend h ?_ ha
  intro origin hput
  split at hput
  · exact distinct_of_map_set h hput
  · exact distinct_of_map_set h hput
  · cases hput

theorem distinct_addElement (h : Distinct fs) (ha : addElement key pairs fs = some fs') :
    Distinct fs' := by
  refine distinct_descend h ?_ ha
  intro origin hput
  split at hput
  · exact distinct_of_map_set h hput
  · exact distinct_of_map_set h hput
  · cases hput

end Fields

theorem distinct_addSections {sections : List Section} {fs fs' : Fields} (h : Distinct fs)
    (ha : addSections sections fs = some fs') : Distinct fs' := by
  induction sections generalizing fs with
  | nil =>
    cases ha
    exact h
  | cons s sections ih =>
    simp only [addSections] at ha
    split at ha
    · cases ha
    · rename_i next hadded
      refine ih ?_ ha
      split at hadded
      · exact Fields.distinct_addTable h hadded
      · exact Fields.distinct_addElement h hadded

theorem names_fieldValues (fs : Fields) : (fieldValues fs).map (·.1) = fs.map (·.1) := by
  induction fs with
  | nil => rfl
  | cons e fs ih =>
    obtain ⟨name, x⟩ := e
    rw [fieldValues, List.map_cons, List.map_cons, ih]

theorem distinct_of_parse? {text : List Char} {t : Table} (h : parse? text = some t) :
    Distinct t := by
  have hempty : Distinct ([] : Fields) := List.nodup_nil
  simp only [parse?] at h
  split at h
  · cases h
  · split at h
    · cases h
    · rename_i hpairs
      obtain ⟨all, hall, rfl⟩ := Option.map_eq_some_iff.1 h
      rw [Distinct, names_fieldValues]
      exact distinct_addSections (Fields.distinct_insertAll hempty hpairs) hall

/-- A text without headers is read as its pairs, put in one after the other. -/
theorem parse?_of_pairs {text s : List Char} {pairs : List Pair} {fs : Fields}
    (hmark : dropMark text = s) (hpairs : statements? (s.length + 1) s = some (pairs, []))
    (hfields : Fields.insertAll pairs [] = some fs) : parse? text = some (fieldValues fs) := by
  simp only [parse?, hmark, hpairs, hfields, addSections, Option.map_some]

end Toml
end RefManifest
