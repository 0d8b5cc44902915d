import Mathlib.Data.List.Basic
import RefManifest.Disk.Node

/-!
# RefManifest.Proofs.Disk.Tree

A file tree, seen place by place.

`entryAt x place` is what is at a place of the tree: a file with its content, a link with its
target, or a directory. Everything that the program finds out about a tree it finds out through
entries, so a change to a tree is described by saying how it changes them.

* `entryAt_setEntry`: putting a file or an empty directory into a directory changes the entry at
  its place, and no other.
* `valid_setEntry`: a valid tree stays valid.
* `editDir_eraseEntry_setEntry`: adding a new entry and removing it again leaves the tree as it
  was.
-/

namespace RefManifest
namespace Disk

open Text

/-- A node without what is below it. -/
inductive Entry where
  | file (content : Octets)
  | link (target : Path)
  | dir
deriving DecidableEq

namespace Node

def entry : Node → Entry
  | .file c => .file c
  | .link t => .link t
  | .dir _ => .dir

/-- What is at a place of the tree. -/
def entryAt (x : Node) (place : List Name) : Option Entry := (x.get? place).map entry

theorem get?_cons_eq_some {x y : Node} {k : Name} {rest : List Name} :
    x.get? (k :: rest) = some y ↔
      ∃ es z, x = .dir es ∧ es.lookup k = some z ∧ z.get? rest = some y := by
  cases x with
  | file c => simp [get?]
  | link t => simp [get?]
  | dir es => cases hk : es.lookup k <;> simp [get?, hk]

theorem get?_append (a b : List Name) (x : Node) :
    x.get? (a ++ b) = (x.get? a).bind fun y => y.get? b := by
  induction a generalizing x with
  | nil => simp [get?]
  | cons n rest ih =>
    cases x with
    | file c => simp [get?]
    | link t => simp [get?]
    | dir es =>
      simp only [List.cons_append, get?]
      cases es.lookup n with
      | none => rfl
      | some y => exact ih y

theorem get?_concat {x : Node} {place : List Name} {es : List (Name × Node)}
    (h : x.get? place = some (.dir es)) (n : Name) : x.get? (place ++ [n]) = es.lookup n := by
  rw [get?_append, h]
  simp only [Option.bind_some, get?]
  cases es.lookup n <;> rfl

theorem entryAt_eq_file {x : Node} {place : List Name} {c : Octets} :
    x.entryAt place = some (.file c) ↔ x.get? place = some (.file c) := by
  unfold entryAt
  cases x.get? place with
  | none => simp
  | some y => cases y <;> simp [entry]

theorem entryAt_eq_link {x : Node} {place : List Name} {t : Path} :
    x.entryAt place = some (.link t) ↔ x.get? place = some (.link t) := by
  unfold entryAt
  cases x.get? place with
  | none => simp
  | some y => cases y <;> simp [entry]

theorem entryAt_eq_dir {x : Node} {place : List Name} :
    x.entryAt place = some .dir ↔ ∃ es, x.get? place = some (.dir es) := by
  unfold entryAt
  cases x.get? place with
  | none => simp
  | some y => cases y <;> simp [entry]

theorem entryAt_eq_none {x : Node} {place : List Name} :
    x.entryAt place = none ↔ x.get? place = none := by
  simp [entryAt]

theorem entryAt_concat {x : Node} {place : List Name} {es : List (Name × Node)}
    (h : x.get? place = some (.dir es)) (n : Name) :
    x.entryAt (place ++ [n]) = (es.lookup n).map entry := by
  rw [entryAt, get?_concat h]

/-- Below a place there is something only if a directory is there. -/
theorem entryAt_of_below {x : Node} {place : List Name} {n : Name} {rest : List Name}
    (h : x.entryAt (place ++ n :: rest) ≠ none) : x.entryAt place = some .dir := by
  rw [Ne, entryAt_eq_none, get?_append] at h
  unfold entryAt
  cases hx : x.get? place with
  | none => simp [hx] at h
  | some y =>
    cases y with
    | file c => simp [hx, get?] at h
    | link t => simp [hx, get?] at h
    | dir es => rfl

theorem dir_of_dir_below {x : Node} {place rest : List Name}
    (h : x.entryAt (place ++ rest) = some .dir) : x.entryAt place = some .dir := by
  cases rest with
  | nil =>
    rw [List.append_nil] at h
    exact h
  | cons n rest => exact entryAt_of_below (by rw [h]; simp)

theorem entryAt_below_eq_none {x : Node} {place : List Name} (h : x.entryAt place ≠ some .dir)
    (n : Name) (rest : List Name) : x.entryAt (place ++ n :: rest) = none := by
  by_contra hne
  exact h (entryAt_of_below hne)

/-! ## Editing -/

/-- A node with nothing below it. -/
def isBare (x : Node) : Prop := ∀ n rest, x.get? (n :: rest) = none

theorem isBare_file (c : Octets) : (Node.file c).isBare := fun _ _ => rfl

theorem isBare_emptyDir : (Node.dir []).isBare := fun _ _ => rfl

theorem get?_editDir_self {x : Node} {place : List Name} {es : List (Name × Node)}
    (h : x.get? place = some (.dir es)) (f : List (Name × Node) → List (Name × Node)) :
    (x.editDir f place).get? place = some (.dir (f es)) := by
  induction place generalizing x with
  | nil =>
    simp only [get?, Option.some.injEq] at h
    subst h
    rfl
  | cons k rest ih =>
    obtain ⟨es', y, rfl, hk, h⟩ := get?_cons_eq_some.1 h
    simp [editDir, hk, get?, lookup_setEntry, ih h]

/-- Editing a directory leaves the entries alone that are not below it. -/
theorem entryAt_editDir_of_not_below (f : List (Name × Node) → List (Name × Node)) (x : Node)
    (place q : List Name) (h : ∀ n rest, q ≠ place ++ n :: rest) :
    (x.editDir f place).entryAt q = x.entryAt q := by
  induction place generalizing x q with
  | nil =>
    cases q with
    | nil => cases x <;> rfl
    | cons n rest => exact absurd rfl (h n rest)
  | cons k place ih =>
    cases x with
    | file c => rfl
    | link t => rfl
    | dir es =>
      simp only [editDir]
      cases hk : es.lookup k with
      | none => rfl
      | some y =>
        cases q with
        | nil => rfl
        | cons m rest =>
          simp only [entryAt, get?, lookup_setEntry]
          by_cases hm : m = k
          · subst hm
            have := ih y rest fun n rest' e => h n rest' (by rw [e]; rfl)
            simpa [hk, entryAt] using this
          · simp [hm]

/-- A bare node in a directory, where no directory was before, changes the entry at its place. -/
theorem entryAt_setEntry {x y : Node} {place : List Name} {n : Name}
    (hdir : x.entryAt place = some .dir) (hold : x.entryAt (place ++ [n]) ≠ some .dir)
    (hy : y.isBare) (q : List Name) :
    (x.editDir (setEntry n y) place).entryAt q =
      if q = place ++ [n] then some y.entry else x.entryAt q := by
  obtain ⟨es, hes⟩ := entryAt_eq_dir.1 hdir
  have hself := get?_editDir_self hes (setEntry n y)
  by_cases hbelow : ∃ m rest, q = place ++ m :: rest
  · obtain ⟨m, rest, rfl⟩ := hbelow
    have hget : (x.editDir (setEntry n y) place).get? (place ++ m :: rest) =
        if m = n then y.get? rest else x.get? (place ++ m :: rest) := by
      rw [get?_append, hself, get?_append, hes]
      simp only [Option.bind_some, get?, lookup_setEntry]
      by_cases hm : m = n <;> simp [hm]
    rw [entryAt, hget]
    by_cases hm : m = n
    · subst hm
      cases rest with
      | nil => simp [get?]
      | cons k rest =>
        have hnone := entryAt_below_eq_none hold k rest
        rw [List.append_assoc] at hnone
        simpa [hy k rest] using hnone.symm
    · simp [hm, entryAt]
  · have hq : q ≠ place ++ [n] := fun e => hbelow ⟨n, [], e⟩
    rw [if_neg hq]
    exact entryAt_editDir_of_not_below _ _ _ _ fun m rest e => hbelow ⟨m, rest, e⟩

theorem setEntry_setEntry (k : Name) (y z : Node) (es : List (Name × Node)) :
    setEntry k z (setEntry k y es) = setEntry k z es := by
  induction es with
  | nil => simp [setEntry]
  | cons e es ih =>
    by_cases h : e.1 = k
    · simp [setEntry, h]
    · simp [setEntry, h, ih]

theorem setEntry_of_lookup {k : Name} {y : Node} {es : List (Name × Node)}
    (h : es.lookup k = some y) : setEntry k y es = es := by
  induction es with
  | nil => simp at h
  | cons e es ih =>
    obtain ⟨m, z⟩ := e
    by_cases hm : m = k
    · subst hm
      simp only [List.lookup_cons, BEq.rfl, Option.some.injEq] at h
      simp [setEntry, h]
    · have hkm : (k == m) = false := by simpa using fun e => hm e.symm
      rw [List.lookup_cons, hkm] at h
      simp [setEntry, hm, ih h]

theorem editDir_editDir (f g : List (Name × Node) → List (Name × Node)) (x : Node)
    (place : List Name) :
    (x.editDir f place).editDir g place = x.editDir (fun es => g (f es)) place := by
  induction place generalizing x with
  | nil => cases x <;> rfl
  | cons k place ih =>
    cases x with
    | file c => rfl
    | link t => rfl
    | dir es =>
      simp only [editDir]
      cases hk : es.lookup k with
      | none => simp [editDir, hk]
      | some y =>
        have hself : (setEntry k (y.editDir f place) es).lookup k = some (y.editDir f place) := by
          simp [lookup_setEntry]
        simp only [editDir, hself, ih, setEntry_setEntry]

theorem editDir_of_eq {f : List (Name × Node) → List (Name × Node)} {x : Node}
    {place : List Name} {es : List (Name × Node)} (h : x.get? place = some (.dir es))
    (hf : f es = es) : x.editDir f place = x := by
  induction place generalizing x with
  | nil =>
    simp only [get?, Option.some.injEq] at h
    subst h
    simp [editDir, hf]
  | cons k place ih =>
    obtain ⟨es', y, rfl, hk, h⟩ := get?_cons_eq_some.1 h
    simp [editDir, hk, ih h, setEntry_of_lookup hk]

theorem eraseEntry_setEntry {n : Name} {y : Node} {es : List (Name × Node)}
    (h : es.lookup n = none) : eraseEntry n (setEntry n y es) = es := by
  induction es with
  | nil => simp [setEntry, eraseEntry]
  | cons e es ih =>
    obtain ⟨m, z⟩ := e
    by_cases hm : m = n
    · subst hm; simp at h
    · have hnm : (n == m) = false := by simpa using fun e => hm e.symm
      rw [List.lookup_cons, hnm] at h
      simp [setEntry, eraseEntry, hm, ih h]

theorem editDir_eraseEntry_setEntry {x y : Node} {place : List Name} {n : Name}
    {es : List (Name × Node)} (h : x.get? place = some (.dir es)) (hn : es.lookup n = none) :
    (x.editDir (setEntry n y) place).editDir (eraseEntry n) place = x := by
  rw [editDir_editDir]
  exact editDir_of_eq h (eraseEntry_setEntry hn)

/-! ## Valid trees -/

theorem validEntries_iff {es : List (Name × Node)} :
    ValidEntries es ↔ ∀ e ∈ es, ValidName e.1 ∧ e.2.Valid := by
  induction es with
  | nil => simp [ValidEntries]
  | cons e es ih => simp [ValidEntries, ih, and_assoc]

theorem valid_dir_iff {es : List (Name × Node)} :
    (Node.dir es).Valid ↔
      (es.map (·.1)).Nodup ∧ ∀ e ∈ es, ValidName e.1 ∧ e.2.Valid := by
  rw [Valid, validEntries_iff]

theorem mem_of_lookup {α β : Type} [BEq α] [LawfulBEq α] {n : α} {y : β} {es : List (α × β)}
    (h : es.lookup n = some y) : (n, y) ∈ es := by
  obtain ⟨before, after, rfl, -⟩ := List.lookup_eq_some_iff.1 h
  simp

theorem lookup_eq_some_iff_mem {α β : Type} [BEq α] [LawfulBEq α] {es : List (α × β)}
    (h : (es.map (·.1)).Nodup) {n : α} {y : β} : es.lookup n = some y ↔ (n, y) ∈ es := by
  refine ⟨mem_of_lookup, ?_⟩
  induction es with
  | nil => simp
  | cons e es ih =>
    obtain ⟨m, z⟩ := e
    obtain ⟨hm, hnd⟩ := List.nodup_cons.1 h
    intro hmem
    rcases List.mem_cons.1 hmem with heq | htail
    · cases heq
      simp
    · have hnm : (n == m) = false := by
        simp only [beq_eq_false_iff_ne, ne_eq]
        rintro rfl
        exact hm (List.mem_map.2 ⟨_, htail, rfl⟩)
      rw [List.lookup_cons, hnm]
      exact ih hnd htail

theorem valid_of_get? {x y : Node} {place : List Name} (hx : x.Valid)
    (h : x.get? place = some y) : y.Valid := by
  induction place generalizing x with
  | nil =>
    simp only [get?, Option.some.injEq] at h
    exact h ▸ hx
  | cons k place ih =>
    obtain ⟨es, z, rfl, hk, h⟩ := get?_cons_eq_some.1 h
    exact ih ((valid_dir_iff.1 hx).2 _ (mem_of_lookup hk)).2 h

theorem validName_of_get? {x y : Node} {place : List Name} (hx : x.Valid)
    (h : x.get? place = some y) : ∀ n ∈ place, ValidName n := by
  induction place generalizing x with
  | nil => simp
  | cons k place ih =>
    obtain ⟨es, z, rfl, hk, h⟩ := get?_cons_eq_some.1 h
    have he := (valid_dir_iff.1 hx).2 _ (mem_of_lookup hk)
    intro n hn
    rcases List.mem_cons.1 hn with rfl | hn
    · exact he.1
    · exact ih he.2 h n hn

theorem map_fst_setEntry (n : Name) (y : Node) (es : List (Name × Node)) :
    (setEntry n y es).map (·.1) =
      if n ∈ es.map (·.1) then es.map (·.1) else es.map (·.1) ++ [n] := by
  induction es with
  | nil => simp [setEntry]
  | cons e es ih =>
    by_cases h : e.1 = n
    · simp [setEntry, h]
    · have hn : ¬ n = e.1 := fun e' => h e'.symm
      simp only [setEntry, h, if_false, List.map_cons, ih, List.mem_cons, hn, false_or]
      split <;> rfl

theorem mem_setEntry {n : Name} {y : Node} {es : List (Name × Node)} {e : Name × Node}
    (h : e ∈ setEntry n y es) : e = (n, y) ∨ e ∈ es := by
  induction es with
  | nil => simpa [setEntry] using h
  | cons a es ih =>
    by_cases ha : a.1 = n
    · simp only [setEntry, ha, if_true, List.mem_cons] at h
      rcases h with h | h
      · exact .inl h
      · exact .inr (List.mem_cons_of_mem _ h)
    · simp only [setEntry, ha, if_false, List.mem_cons] at h
      rcases h with h | h
      · exact .inr (h ▸ List.mem_cons_self ..)
      · exact (ih h).imp_right (List.mem_cons_of_mem _)

theorem valid_dir_setEntry {n : Name} {y : Node} {es : List (Name × Node)}
    (h : (Node.dir es).Valid) (hn : ValidName n) (hy : y.Valid) :
    (Node.dir (setEntry n y es)).Valid := by
  rw [valid_dir_iff] at h ⊢
  refine ⟨?_, fun e he => ?_⟩
  · rw [map_fst_setEntry]
    split
    · exact h.1
    · rename_i hmem
      exact List.nodup_append.2 ⟨h.1, by simp, by rintro a ha b hb rfl; simp_all⟩
  · rcases mem_setEntry he with rfl | he
    · exact ⟨hn, hy⟩
    · exact h.2 e he

theorem valid_setEntry {x y : Node} {place : List Name} {n : Name} (hx : x.Valid)
    (hn : ValidName n) (hy : y.Valid) : (x.editDir (setEntry n y) place).Valid := by
  induction place generalizing x with
  | nil =>
    cases x with
    | file c => exact hx
    | link t => exact hx
    | dir es => exact valid_dir_setEntry hx hn hy
  | cons k place ih =>
    cases x with
    | file c => exact hx
    | link t => exact hx
    | dir es =>
      simp only [editDir]
      cases hk : es.lookup k with
      | none => exact hx
      | some z =>
        have he := (valid_dir_iff.1 hx).2 _ (mem_of_lookup hk)
        exact valid_dir_setEntry hx he.1 (ih he.2)

end Node
end Disk
end RefManifest
