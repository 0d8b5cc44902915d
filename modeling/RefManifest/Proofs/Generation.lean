import RefManifest.Generation
import RefManifest.Proofs.Discovery
import RefManifest.Proofs.Render

/-!
# RefManifest.Proofs.Generation

When a generation succeeds, and what its result depends on.

`generate_eq_ok` splits a generation into what it finds out about the disk, which is the place of
the reference directory and the templates listed below it, and the manifest that is built from
them, for which the disk is not looked at again. So two disks on which the directory has the same
place and the same templates have the same manifest.
-/

namespace RefManifest
namespace Generation

open Disk

variable {fs : FileSystem} {s : Settings} {place : List Name}

/-- The places that the skip paths lead to. -/
def skipPlaces (fs : FileSystem) (skips : List Path) : List (List Name) :=
  skips.filterMap fs.canonical?

theorem mem_skipPlaces {skips : List Path} {q : List Name} :
    q ∈ skipPlaces fs skips ↔ ∃ skip ∈ skips, fs.canonical? skip = some q := by
  rw [skipPlaces, List.mem_filterMap]

theorem validName_of_skipPlaces (hx : fs.root.Valid) {skips : List Path} :
    ∀ q ∈ skipPlaces fs skips, ∀ n ∈ q, Node.ValidName n := by
  intro q hq
  obtain ⟨skip, -, hcanonical⟩ := mem_skipPlaces.1 hq
  have hentry := (FileSystem.canonical?_eq_some.1 hcanonical).2.2
  rw [Ne, Node.entryAt_eq_none] at hentry
  obtain ⟨y, hy⟩ := Option.ne_none_iff_exists'.1 hentry
  exact Node.validName_of_get? hx hy

theorem locate_eq_ok {dir : Path} :
    locate fs dir = .ok place ↔
      fs.canonical? dir = some place ∧ fs.root.entryAt place = some .dir := by
  unfold locate
  cases hcanonical : fs.canonical? dir with
  | none => simp
  | some q =>
    simp only [Option.some.injEq]
    constructor
    · intro h
      split at h
      · rename_i es hget
        cases h
        exact ⟨rfl, Node.entryAt_eq_dir.2 ⟨es, hget⟩⟩
      · cases h
    · rintro ⟨rfl, hdir⟩
      obtain ⟨es, hget⟩ := Node.entryAt_eq_dir.1 hdir
      rw [hget]

/-- The templates that the settings ask for below `place`. -/
def Templates (fs : FileSystem) (s : Settings) (place : List Name) : List Template → Prop :=
  Listed fs.root place s.excludes (skipPlaces fs s.skipPaths)

theorem exists_templates (hx : fs.root.Valid) (s : Settings)
    (hdir : fs.root.entryAt place = some .dir) : ∃ ts, Templates fs s place ts := by
  obtain ⟨es, hget⟩ := Node.entryAt_eq_dir.1 hdir
  exact ⟨_, Discovery.listed_walk hx hget (validName_of_skipPlaces hx)⟩

/-- Generation succeeds exactly if the reference directory is found, the walk through it
goes to its end, and the manifest can be built from the templates. -/
theorem generate_eq_ok (hx : fs.root.Valid) {g : Generated} :
    (generate fs s).result = .ok g ↔
      ∃ place ts, fs.canonical? s.referenceDir = some place ∧
        fs.root.entryAt place = some .dir ∧ Walkable fs.root place ∧
        Templates fs s place ts ∧ (build s place ts).result = .ok g := by
  unfold generate
  cases hlocate : locate fs s.referenceDir with
  | error f =>
    simp only [Traced.error, reduceCtorEq, false_iff, not_exists]
    rintro place ts ⟨hcanonical, hdir, -⟩
    rw [locate_eq_ok.2 ⟨hcanonical, hdir⟩] at hlocate
    cases hlocate
  | ok place =>
    obtain ⟨hcanonical, hdir⟩ := locate_eq_ok.1 hlocate
    have hdiscover := fun ts => @Discovery.discover_eq_ok fs place s.excludes
      (skipPlaces fs s.skipPaths) hx hdir (validName_of_skipPlaces hx) ts
    have hskips : canonicalSkips fs s.skipPaths =
      (skipPlaces fs s.skipPaths).map Path.ofRoot := rfl
    simp only [hskips]
    cases hfound : Discovery.discover fs (Path.ofRoot place) s.excludes
        ((skipPlaces fs s.skipPaths).map Path.ofRoot) with
    | mk ns result =>
      simp only [hfound] at hdiscover
      cases result with
      | error f =>
        simp only [reduceCtorEq, false_iff, not_exists]
        rintro place' ts ⟨hplace, -, hwalkable, hts, -⟩
        rw [hcanonical] at hplace
        cases hplace
        cases (hdiscover ts).2 ⟨hwalkable, hts⟩
      | ok ts =>
        obtain ⟨hwalkable, hts⟩ := (hdiscover ts).1 rfl
        simp only [Traced.after]
        constructor
        · intro hbuild
          exact ⟨place, ts, hcanonical, hdir, hwalkable, hts, hbuild⟩
        · rintro ⟨place', ts', hplace, -, -, hts', hbuild⟩
          rw [hcanonical] at hplace
          cases hplace
          rwa [hts.unique hts' fun _ => Iff.rfl]

/-- The record of a template, if it can be read and named. -/
def recordOf? (place : List Name) (t : Template) : Option Record :=
  (readRecord place t).result.toOption

theorem fileAll_eq_ok {ts : List Template} {h h' : Hierarchy}
    (hok : (fileAll place h ts).result = .ok h') :
    (ts.filterMap (recordOf? place)).length = ts.length ∧
      h' = (ts.filterMap (recordOf? place)).foldl (fun h r => (h.add r).1) h := by
  induction ts generalizing h with
  | nil =>
    cases hok
    exact ⟨rfl, rfl⟩
  | cons t ts ih =>
    unfold fileAll at hok
    split at hok
    · cases hok
    · rename_i ns r hread
      split at hok
      · cases hok
      · rename_i next more hadd
        obtain ⟨hlen, hfold⟩ := ih hok
        have hrecord : recordOf? place t = some r := by
          rw [recordOf?, hread]
          rfl
        rw [List.filterMap_cons_some hrecord, List.length_cons, List.length_cons, List.foldl_cons,
          hadd, hlen]
        exact ⟨rfl, hfold⟩

/-- A generation succeeds if each of its stages does, and gives what was filed. -/
theorem exists_generated_of_filed {ts : List Template} {h : Hierarchy}
    (hplace : locate fs s.referenceDir = .ok place)
    (hdiscover : (Discovery.discover fs (Path.ofRoot place) s.excludes
      (canonicalSkips fs s.skipPaths)).result = .ok ts)
    (hfiled : (fileAll place (Hierarchy.start s.exitOnError) ts).result = .ok h) :
    ∃ g, (generate fs s).result = .ok g ∧ g.manifest = h.finish := by
  have hbuild : ∃ g, (build s place ts).result = .ok g ∧ g.manifest = h.finish := by
    simp only [build, hfiled]
    exact ⟨_, rfl, rfl⟩
  rw [generate, hplace]
  simp only
  cases hfound : Discovery.discover fs (Path.ofRoot place) s.excludes
      (canonicalSkips fs s.skipPaths) with
  | mk ns result =>
    rw [hfound] at hdiscover
    cases hdiscover
    exact hbuild

theorem exists_generated {ts : List Template} (hplace : locate fs s.referenceDir = .ok place)
    (hdiscover : (Discovery.discover fs (Path.ofRoot place) s.excludes
      (canonicalSkips fs s.skipPaths)).result = .ok ts)
    (hfiled : (fileAll place (Hierarchy.start s.exitOnError) ts).result.isOk = true) :
    ∃ g, (generate fs s).result = .ok g := by
  cases hh : (fileAll place (Hierarchy.start s.exitOnError) ts).result with
  | error f =>
    rw [hh] at hfiled
    cases hfiled
  | ok h =>
    obtain ⟨g, hok, -⟩ := exists_generated_of_filed hplace hdiscover hh
    exact ⟨g, hok⟩

theorem build_eq_ok {ts : List Template} {g : Generated}
    (hok : (build s place ts).result = .ok g) :
    (ts.filterMap (recordOf? place)).length = ts.length ∧
      g.rendered = (Hierarchy.feed s.exitOnError
        (ts.filterMap (recordOf? place))).finish.render s.format := by
  simp only [build] at hok
  split at hok
  · cases hok
  · rename_i h hfiled
    cases hok
    obtain ⟨hlen, rfl⟩ := fileAll_eq_ok hfiled
    exact ⟨hlen, rfl⟩

theorem generate_rendered {g : Generated} (h : (generate fs s).result = .ok g) :
    g.rendered = g.manifest.render s.format := by
  have hbuild : ∀ {place ts}, (build s place ts).result = .ok g →
      g.rendered = g.manifest.render s.format := by
    intro place ts hbuild
    simp only [build] at hbuild
    split at hbuild
    · cases hbuild
    · cases hbuild
      rfl
  unfold generate at h
  split at h
  · cases h
  · simp only at h
    split at h
    · cases h
    · exact hbuild h

/-- The text that is generated from the templates. -/
def textOf (s : Settings) (place : List Name) (ts : List Template) : Except Failure String :=
  (build s place ts).result.map (·.rendered)

theorem textOf_eq_ok {ts : List Template} {text : String} :
    textOf s place ts = .ok text ↔
      ∃ g, (build s place ts).result = .ok g ∧ g.rendered = text := by
  unfold textOf
  cases (build s place ts).result with
  | error f => simp [Except.map]
  | ok g => simp [Except.map]

/-- Fewer templates make another text, if they make one at all. -/
theorem textOf_ne_of_sublist {ts ts' : List Template} {text : String} (h : ts'.Sublist ts)
    (hlen : ts'.length < ts.length) (hok : textOf s place ts = .ok text) :
    textOf s place ts' ≠ .ok text := by
  intro hok'
  obtain ⟨g, hbuild, htext⟩ := textOf_eq_ok.1 hok
  obtain ⟨g', hbuild', htext'⟩ := textOf_eq_ok.1 hok'
  obtain ⟨hcount, hrendered⟩ := build_eq_ok hbuild
  obtain ⟨hcount', hrendered'⟩ := build_eq_ok hbuild'
  have hlt := length_rendered_lt s.format s.exitOnError (h.filterMap (recordOf? place))
    (by rw [hcount, hcount']; exact hlen)
  rw [hrendered, Manifest.render] at htext
  rw [hrendered', Manifest.render, ← htext, String.ofList_inj] at htext'
  rw [htext'] at hlt
  exact Nat.lt_irrefl _ hlt

end Generation
end RefManifest
