import RefManifest.Proofs.Disk.Leads
import RefManifest.Proofs.Disk.Walk

/-!
# RefManifest.Proofs.Disk.Agree

Two disks that hold the same.

A directory is a list of entries, and the order of that list is the order in which the entries
were made. Nothing that the program finds out depends on it: where a path leads, why it leads
nowhere, and what the walk meets are the same for two trees with the same entry at every place.

* `resolveFrom_agree`: the step by step resolution, faults included.
* `walk_agree`: the walk, but for what the directories list.
-/

namespace RefManifest

open Text Disk

namespace Disk

variable {x y : Node}

/-- The trees hold the same entry at every place. -/
def Node.Agree (x y : Node) : Prop := ∀ q, y.entryAt q = x.entryAt q

theorem Node.entry_eq_link {t : Path} : x.entry = .link t ↔ x = .link t := by
  cases x <;> simp [entry]

/-- A link under a name is the same link where the entries under that name are the same. -/
theorem Node.link_of_map_entry {a b : Option Node} (h : b.map entry = a.map entry) {t : Path}
    (ha : a = some (.link t)) : b = some (.link t) := by
  rw [ha, Option.map_some, Option.map_eq_some_iff] at h
  obtain ⟨z, hz, hlink⟩ := h
  rw [hz, entry_eq_link.1 hlink]

namespace Node.Agree

theorem symm (h : x.Agree y) : y.Agree x := fun q => (h q).symm

theorem get? (h : x.Agree y) {place : List Name} {a : Node} (ha : x.get? place = some a) :
    ∃ b, y.get? place = some b ∧ a.Agree b := by
  have hplace := h place
  rw [entryAt, entryAt, ha] at hplace
  obtain ⟨b, hb, -⟩ := Option.map_eq_some_iff.1 hplace
  refine ⟨b, hb, fun q => ?_⟩
  have hbelow := h (place ++ q)
  rw [entryAt, entryAt, get?_append, get?_append, ha, hb] at hbelow
  exact hbelow

theorem get?_eq_none (h : x.Agree y) {place : List Name} (hx : x.get? place = none) :
    y.get? place = none := by
  rw [← entryAt_eq_none, h, entryAt_eq_none, hx]

theorem entry_eq (h : x.Agree y) : y.entry = x.entry := by
  have htop := h []
  simpa [entryAt, Node.get?] using htop

theorem isDir_eq (h : x.Agree y) : y.isDir = x.isDir := by
  have htop := h.entry_eq
  cases x <;> cases y <;> simp_all [entry, isDir]

theorem dir (h : x.Agree y) {start : List Name} {es : List (Name × Node)}
    (hdir : x.get? start = some (.dir es)) :
    ∃ es', y.get? start = some (.dir es') ∧
      ∀ n, (es'.lookup n).map entry = (es.lookup n).map entry := by
  have hentry : y.entryAt start = some .dir := by rw [h, entryAt_eq_dir]; exact ⟨es, hdir⟩
  obtain ⟨es', hes'⟩ := entryAt_eq_dir.1 hentry
  refine ⟨es', hes', fun n => ?_⟩
  rw [← entryAt_concat hes', ← entryAt_concat hdir, h]

end Node.Agree

theorem resolveThrough_agree (h : x.Agree y) (follow : Bool) (fits : List Name → Bool)
    (jump : List Name → List Step → Except Fault (List Name)) (start : List Name)
    (pending : List Step) :
    resolveThrough y follow fits jump start pending =
      resolveThrough x follow fits jump start pending := by
  fun_induction resolveThrough x follow fits jump start pending with
  | case1 start => rw [resolveThrough]
  | case2 start rest es hdir ih =>
    obtain ⟨es', hdir', -⟩ := h.dir hdir
    rw [resolveThrough, hdir']
    exact ih
  | case3 start rest es hdir ih =>
    obtain ⟨es', hdir', -⟩ := h.dir hdir
    rw [resolveThrough, hdir']
    exact ih
  | case4 start rest es hdir n hfit =>
    obtain ⟨es', hdir', -⟩ := h.dir hdir
    rw [resolveThrough, hdir']
    simp [hfit]
  | case5 start rest es hdir n hfit hlook =>
    obtain ⟨es', hdir', hsame⟩ := h.dir hdir
    have hlook' : es'.lookup n = none := by simpa [hlook] using hsame n
    rw [resolveThrough, hdir']
    simp [hfit, hlook']
  | case6 start rest es hdir n hfit t hlook hstop =>
    obtain ⟨es', hdir', hsame⟩ := h.dir hdir
    have hlook' := Node.link_of_map_entry (hsame n) hlook
    rw [resolveThrough, hdir']
    simp only [hfit, if_false, hlook', hstop, and_self, if_true]
  | case7 start rest es hdir n hfit t hlook hstop =>
    obtain ⟨es', hdir', hsame⟩ := h.dir hdir
    have hlook' := Node.link_of_map_entry (hsame n) hlook
    rw [resolveThrough, hdir']
    simp only [hfit, if_false, hlook', hstop]
  | case8 start rest es hdir n hfit z hlink hlook ih =>
    obtain ⟨es', hdir', hsame⟩ := h.dir hdir
    obtain ⟨z', hlook', hentry⟩ : ∃ z', es'.lookup n = some z' ∧ z'.entry = z.entry := by
      have hmap := hsame n
      rwa [hlook, Option.map_some, Option.map_eq_some_iff] at hmap
    have hlink' : ∀ t, z' ≠ .link t := by
      rintro t rfl
      exact hlink t (Node.entry_eq_link.1 hentry.symm)
    rw [resolveThrough, hdir']
    simp only [hfit, if_false, hlook']
    cases z' with
    | file c => exact ih
    | link t => exact absurd rfl (hlink' t)
    | dir es'' => exact ih
  | case9 start step rest hdir =>
    have hdir' : ∀ es', y.get? start ≠ some (.dir es') := by
      intro es' hes'
      obtain ⟨es, hes, -⟩ := h.symm.dir hes'
      exact hdir es hes
    rw [resolveThrough]
    split
    · rename_i es' hes'
      exact absurd hes' (hdir' es')
    · rfl

/-- Resolving a path takes the same way through both trees, and fails for the same reason. -/
theorem resolveFrom_agree (h : x.Agree y) (follow : Bool) (fits : List Name → Bool)
    (links : Nat) : resolveFrom y follow fits links = resolveFrom x follow fits links := by
  induction links with
  | zero =>
    funext start pending
    exact resolveThrough_agree h follow fits _ start pending
  | succ left ih =>
    funext start pending
    rw [resolveFrom, resolveFrom, ih]
    exact resolveThrough_agree h follow fits _ start pending

/-- The walk meets the same entries in the same order. -/
theorem walk_agree (hx : x.Valid) (hy : y.Valid) (h : x.Agree y) :
    y.walk.map (fun e => (e.1, e.2.entry)) = x.walk.map fun e => (e.1, e.2.entry) := by
  have hmem : ∀ {z : Node}, z.Valid → ∀ e : List Name × Entry,
      e ∈ z.walk.map (fun e => (e.1, e.2.entry)) ↔ z.entryAt e.1 = some e.2 := by
    rintro z hz ⟨names, e⟩
    simp only [List.mem_map, Prod.exists, Prod.mk.injEq, Node.mem_walk hz, Node.entryAt,
      Option.map_eq_some_iff]
    constructor
    · rintro ⟨_, a, ha, rfl, rfl⟩
      exact ⟨a, ha, rfl⟩
    · rintro ⟨a, ha, rfl⟩
      exact ⟨names, a, ha, rfl, rfl⟩
  have hsorted : ∀ {z : Node}, z.Valid →
      (z.walk.map fun e => (e.1, e.2.entry)).Pairwise fun a b => a.1 < b.1 :=
    fun hz => List.pairwise_map.2 (Node.walk_pairwise _ hz)
  refine Node.eq_of_sorted (·.1) (hsorted hy) (hsorted hx) fun e => ?_
  rw [hmem hy, hmem hx, h]

end Disk

namespace FileSystem

/-- The disks hold the same, and relative paths start from the same place. -/
structure Agree (fs fs' : FileSystem) : Prop where
  root : fs.root.Agree fs'.root
  here : fs'.here = fs.here

namespace Agree

variable {fs fs' : FileSystem} (h : fs.Agree fs')
include h

theorem startOf (p : Path) : fs'.startOf p = fs.startOf p := by
  rw [FileSystem.startOf, FileSystem.startOf, h.here]

theorem locate (follow : Bool) (p : Path) : fs'.locate follow p = fs.locate follow p := by
  simp only [FileSystem.locate, resolveFrom_agree h.root, h.startOf]

theorem isSome_get? (place : List Name) :
    (fs'.root.get? place).isSome = (fs.root.get? place).isSome := by
  have hentry := congrArg Option.isSome (h.root place)
  rwa [Node.entryAt, Node.entryAt, Option.isSome_map, Option.isSome_map] at hentry

theorem canonical? (p : Path) : fs'.canonical? p = fs.canonical? p := by
  simp only [FileSystem.canonical?, resolveFrom_agree h.root, h.startOf, h.isSome_get?]

/-- A path that names nothing on one disk names nothing on the other, for the same reason. -/
theorem find_error {follow : Bool} {p : Path} {fault : Fault}
    (hfind : fs.find follow p = .error fault) : fs'.find follow p = .error fault := by
  rw [FileSystem.find] at hfind ⊢
  rw [h.locate]
  cases hlocate : fs.locate follow p with
  | error f =>
    rw [hlocate] at hfind
    exact hfind
  | ok place =>
    rw [hlocate] at hfind
    cases hget : fs.root.get? place with
    | none =>
      simp only [hget, h.root.get?_eq_none hget] at hfind ⊢
      exact hfind
    | some a =>
      simp only [hget] at hfind
      cases hfind

theorem find_ok {follow : Bool} {p : Path} {place : List Name} {a : Node}
    (hfind : fs.find follow p = .ok (place, a)) :
    ∃ b, fs'.find follow p = .ok (place, b) ∧ a.Agree b := by
  obtain ⟨hlocate, hget⟩ := find_eq_ok.1 hfind
  obtain ⟨b, hb, hagree⟩ := h.root.get? hget
  exact ⟨b, find_eq_ok.2 ⟨(h.locate follow p).trans hlocate, hb⟩, hagree⟩

end Agree
end FileSystem
end RefManifest
