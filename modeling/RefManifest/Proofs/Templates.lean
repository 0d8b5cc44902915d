import RefManifest.Proofs.Disk.Agree
import RefManifest.Proofs.Generation

/-!
# RefManifest.Proofs.Templates

The list of the templates that a generation works on.

`discover_eq_ok` tells when the list exists and what is in it, in terms of places. Here the skip
paths are paths again, the patterns are matched against the path in slash form, and the list is
shown to be the same for every disk that holds the same files, in whatever order they were made.

* `gather_congr`, `walk_agree`: the walk does not depend on the order in which directories list
  their entries, and neither does the failure that ends it.
* `discover_lists`: the list, member by member, and its order.
-/

namespace RefManifest

open Text Disk

namespace Discovery

theorem gather_congr (base : Path) {a b : List (List Name × Node)}
    (h : b.map (fun e => (e.1, e.2.entry)) = a.map fun e => (e.1, e.2.entry)) :
    gather base b = gather base a := by
  induction a generalizing b with
  | nil =>
    rw [List.map_nil, List.map_eq_nil_iff] at h
    rw [h]
  | cons e a ih =>
    obtain ⟨names, x⟩ := e
    cases b with
    | nil => cases h
    | cons e' b =>
      obtain ⟨names', y⟩ := e'
      simp only [List.map_cons, List.cons.injEq, Prod.mk.injEq] at h
      obtain ⟨⟨rfl, hentry⟩, hrest⟩ := h
      -- The two nodes are of one kind, and only a directory is more than its entry.
      cases x <;> cases y <;>
        simp only [Node.entry, reduceCtorEq, Entry.file.injEq, Entry.link.injEq] at hentry
      · subst hentry
        simp only [gather, ih hrest]
      · simp only [gather, ih hrest]
      · simp only [gather, ih hrest]

section Agree

variable {fs fs' : FileSystem}

theorem gather_agree {x y : Node} (hx : x.Valid) (hy : y.Valid) (h : x.Agree y) (base : Path) :
    gather base y.walk = gather base x.walk :=
  gather_congr base (Disk.walk_agree hx hy h)

theorem valid_of_find {follow : Bool} {p : Path} {place : List Name} {x : Node}
    (hx : fs.root.Valid) (h : fs.find follow p = .ok (place, x)) : x.Valid :=
  Node.valid_of_get? hx (FileSystem.find_eq_ok.1 h).2

theorem walk_agree (hx : fs.root.Valid) (hx' : fs'.root.Valid) (h : fs.Agree fs') (base : Path) :
    walk fs' base = walk fs base := by
  rw [walk, walk]
  cases hfind : fs.find false base with
  | error fault => rw [h.find_error hfind]
  | ok found =>
    obtain ⟨place, x⟩ := found
    obtain ⟨y, hfind', hagree⟩ := h.find_ok hfind
    have hgather := gather_agree (valid_of_find hx hfind) (valid_of_find hx' hfind') hagree base
    have hentry := hagree.entry_eq
    rw [hfind']
    cases x with
    | file c =>
      cases y with
      | file c' => exact hgather
      | link t => cases hentry
      | dir es => cases hentry
    | link t =>
      cases y with
      | file c' => cases hentry
      | link t' =>
        -- A link at the base is followed once, and the walk is over what it leads to.
        cases hend : fs.find true base with
        | error fault => simp only [h.find_error hend]
        | ok target =>
          obtain ⟨q, z⟩ := target
          obtain ⟨z', hend', hagree'⟩ := h.find_ok hend
          have hbelow := gather_agree (valid_of_find hx hend) (valid_of_find hx' hend') hagree' base
          simp only [hend', hagree'.isDir_eq, hbelow]
      | dir es => cases hentry
    | dir es =>
      cases y with
      | file c' => cases hentry
      | link t => cases hentry
      | dir es => exact hgather

theorem discover_agree (hx : fs.root.Valid) (hx' : fs'.root.Valid) (h : fs.Agree fs')
    (base : Path) (excludes : Excludes) (skips : List Path) :
    discover fs' base excludes (Generation.canonicalSkips fs' skips) =
      discover fs base excludes (Generation.canonicalSkips fs skips) := by
  have hskips : Generation.canonicalSkips fs' skips = Generation.canonicalSkips fs skips := by
    have hsame : fs'.canonical? = fs.canonical? := funext h.canonical?
    rw [Generation.canonicalSkips, Generation.canonicalSkips, hsame]
  rw [discover, discover, walk_agree hx hx' h, hskips]

end Agree

/-- The list of the templates. The walk from a directory goes to its end exactly if every
directory on the way can be opened, and then the list holds the regular files that are reached
from there through directories alone, unless some pattern matches the path in slash form or some
skip path leads to the file; a skip path that leads nowhere takes nothing away. The paths come in
their order, compared name by name, so none comes twice, and another disk that holds the same
files has the same list. -/
theorem discover_lists {fs : FileSystem} {place : List Name} (hx : fs.root.Valid)
    (hdir : fs.root.entryAt place = some .dir) (excludes : Excludes) (skips : List Path) :
    let found := discover fs (Path.ofRoot place) excludes (Generation.canonicalSkips fs skips)
    ((∃ ts, found.result = .ok ts) ↔ Walkable fs.root place) ∧
    (∀ ts, found.result = .ok ts →
      (∀ t, t ∈ ts ↔
        fs.root.get? (place ++ t.names) = some (.file t.content) ∧
        (∀ pattern ∈ excludes.patterns, Glob.matchesText pattern t.path.slashed = false) ∧
        ∀ skip ∈ skips, fs.canonical? skip ≠ some (place ++ t.names)) ∧
      (ts.Pairwise fun a b => a.names < b.names) ∧ (ts.map (·.names)).Nodup) ∧
    ∀ fs', fs'.root.Valid → fs.Agree fs' →
      discover fs' (Path.ofRoot place) excludes (Generation.canonicalSkips fs' skips) = found := by
  intro found
  have hfound : ∀ ts, found.result = .ok ts ↔ Walkable fs.root place ∧
      Listed fs.root place excludes (Generation.skipPlaces fs skips) ts :=
    fun ts => discover_eq_ok hx hdir (Generation.validName_of_skipPlaces hx)
  refine ⟨⟨?_, ?_⟩, fun ts hts => ?_, fun fs' hx' h => discover_agree hx hx' h _ _ _⟩
  · rintro ⟨ts, hts⟩
    exact ((hfound ts).1 hts).1
  · intro hwalkable
    obtain ⟨es, hget⟩ := Node.entryAt_eq_dir.1 hdir
    have hlisted := @listed_walk fs place es excludes (Generation.skipPlaces fs skips) hx hget
      (Generation.validName_of_skipPlaces hx)
    exact ⟨_, (hfound _).2 ⟨hwalkable, hlisted⟩⟩
  · obtain ⟨-, hlisted⟩ := (hfound ts).1 hts
    refine ⟨fun t => ?_, hlisted.ordered, Node.nodup_of_sorted Template.names hlisted.ordered⟩
    have hskip : place ++ t.names ∉ Generation.skipPlaces fs skips ↔
        ∀ skip ∈ skips, fs.canonical? skip ≠ some (place ++ t.names) := by
      simp [Generation.mem_skipPlaces]
    have hwanted : excludes.excludes t.path = false ↔
        ∀ pattern ∈ excludes.patterns, Glob.matchesText pattern t.path.slashed = false := by
      simp [Excludes.excludes]
    rw [hlisted.mem, ← hskip, ← hwanted, ← Node.entryAt_eq_file]
    exact ⟨fun h => ⟨h.file, h.wanted, h.kept⟩, fun ⟨hfile, hw, hk⟩ => ⟨hfile, hk, hw⟩⟩

section Mixed

/-- A file beside a directory whose name it continues, links to a file and to a directory, a file
that a pattern matches and one that a skip path leads to through a link. -/
def mixedEntries : List (Name × Node) :=
  [(toOctets "a.b", .file []), (toOctets "skipped", .file []), (toOctets "notes.md", .file []),
    (toOctets "linked", .link (Path.ofString "a/x")),
    (toOctets "a", .dir [(toOctets "x", .file [1])]), (toOctets "way", .link (Path.ofString "a"))]

def mixedDisk : FileSystem := ⟨.dir [(toOctets "ref", .dir mixedEntries)], [toOctets "ref"]⟩

def mixedExcludes : Excludes := ⟨[[.anySequence, .char '.', .char 'm', .char 'd']]⟩

def mixedSkips : List Path := [Path.ofString "way/../skipped", Path.ofString "missing"]

def mixedTemplates : List Template :=
  [⟨[toOctets "a", toOctets "x"], [1]⟩, ⟨[toOctets "a.b"], []⟩]

theorem discover_lists_mixed :
    mixedDisk.root.Valid ∧ mixedDisk.root.entryAt [toOctets "ref"] = some .dir ∧
    Walkable mixedDisk.root [toOctets "ref"] ∧
    (∀ t, t ∈ mixedTemplates ↔
      mixedDisk.root.get? ([toOctets "ref"] ++ t.names) = some (.file t.content) ∧
      (∀ pattern ∈ mixedExcludes.patterns, Glob.matchesText pattern t.path.slashed = false) ∧
      ∀ skip ∈ mixedSkips, mixedDisk.canonical? skip ≠ some ([toOctets "ref"] ++ t.names)) := by
  have hvalid : mixedDisk.root.Valid := by decide
  have hdir : mixedDisk.root.entryAt [toOctets "ref"] = some .dir := rfl
  have hfound : (discover mixedDisk (Path.ofRoot [toOctets "ref"]) mixedExcludes
      (Generation.canonicalSkips mixedDisk mixedSkips)).result = .ok mixedTemplates := by decide +kernel
  obtain ⟨hiff, hlist, -⟩ := discover_lists hvalid hdir mixedExcludes mixedSkips
  exact ⟨hvalid, hdir, hiff.1 ⟨_, hfound⟩, (hlist _ hfound).1⟩

end Mixed
end Discovery
end RefManifest
