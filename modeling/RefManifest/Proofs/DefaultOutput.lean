import RefManifest.Proofs.Disk.Spelling
import RefManifest.Proofs.Naming

/-!
# RefManifest.Proofs.DefaultOutput

What a generation sees of the manifests at their default places.

A manifest of either format has its default place in the reference directory, and both places are
skipped in every run (`Home.mem_skipPlaces`). A skip path is taken where it leads, so a manifest
whose absolute path the system does not take is not skipped, and a run cannot read it either. So a
generation that succeeds has not come across a manifest (`unseen_of_generate`). What it generates
does not depend on what is at the two places (`generate_refreshed`), nor does its manifest on the
format (`generate_reformat`), and lists neither of the two (`not_listed`).
-/

namespace RefManifest

open Text Disk

namespace Format

/-- The default name of a manifest, as an entry of its directory. -/
def entryName (f : Format) : Name := toOctets f.fileName

theorem validName_entryName (f : Format) : Node.ValidName f.entryName := by
  cases f <;> decide

theorem length_entryName (f : Format) : f.entryName.length ≤ maxNameLength := by
  cases f <;> decide

end Format

/-- A template whose path reads as one plain name lies in the reference directory under that
name. -/
theorem Template.names_of_id {t : Template} (hvalid : ∀ n ∈ t.names, Node.ValidName n)
    (hne : t.names ≠ []) {text : String} (hslash : '/' ∉ text.toList)
    (hmark : '\uFFFD' ∉ text.toList) (hid : t.id = text) : t.names = [toOctets text] := by
  have hchars : List.intercalate ['/'] (t.names.map Utf8.decodeLossy) = text.toList := by
    rw [← hid, Template.id, Path.toSlash, String.toList_ofList, Template.path,
      Path.slashed_ofNames hvalid]
  obtain ⟨n, rest, hnames⟩ := List.exists_cons_of_ne_nil hne
  rw [hnames] at hchars
  cases rest with
  | nil =>
    have hname : Utf8.decodeLossy n = text.toList := by simpa using hchars
    rw [hnames, Utf8.eq_encode_of_decodeLossy hname hmark]
    rfl
  | cons m rest =>
    rw [← hchars] at hslash
    simp [List.intercalate] at hslash

namespace Generation

variable {fs fs' : FileSystem} {s s' : Settings} {dir : Path} {place : List Name}
  {ts : List Template} {t : Template} {g : Generated} {f : Format}

/-- The reference directory is at `place`, and there is no link under the default names of its
manifests. -/
structure Home (fs : FileSystem) (dir : Path) (place : List Name) : Prop where
  valid : fs.root.Valid
  reference : fs.canonical? dir = some place
  isDir : fs.root.entryAt place = some .dir
  noLink : ∀ (f : Format) target, fs.root.entryAt (place ++ [f.entryName]) ≠ some (.link target)

/-- The settings of a run without a configuration file whose output is at a default place. -/
structure AtHome (s : Settings) (dir : Path) : Prop where
  reference : s.referenceDir = dir
  skips : ∀ p, p ∈ s.skipPaths ↔ ∃ f, p = defaultOutput dir f

/-- A manifest at its default place is no template: its absolute path can be named, so that it is
skipped, or it is excluded. -/
def Unseen (fs : FileSystem) (place : List Name) (excludes : Excludes) : Prop :=
  ∀ (f : Format) c, fs.root.entryAt (place ++ [f.entryName]) = some (.file c) →
    isNameable (place ++ [f.entryName]) = true ∨
      excludes.excludes (Path.ofNames [f.entryName]) = true

namespace Home

theorem mem_skipPlaces (h : Home fs dir place) (hs : AtHome s dir) {q : List Name} :
    q ∈ skipPlaces fs s.skipPaths ↔
      ∃ f : Format, q = place ++ [f.entryName] ∧ isNameable q = true ∧
        fs.root.entryAt q ≠ none := by
  simp only [Generation.mem_skipPlaces, hs.skips]
  have hleads := fun f out => FileSystem.canonical?_join h.reference h.isDir
    (Format.validName_entryName f) (Format.length_entryName f) (h.noLink f) out
  constructor
  · rintro ⟨-, ⟨f, rfl⟩, hq⟩
    exact ⟨f, (hleads f q).1 hq⟩
  · rintro ⟨f, hq⟩
    exact ⟨_, ⟨f, rfl⟩, (hleads f q).2 hq⟩

/-- A template is a file that is not excluded, and under a default name one that cannot be named. -/
theorem isTemplate_iff (h : Home fs dir place) (hs : AtHome s dir) :
    IsTemplate fs.root place s.excludes (skipPlaces fs s.skipPaths) t ↔
      fs.root.entryAt (place ++ t.names) = some (.file t.content) ∧
      s.excludes.excludes t.path = false ∧
      ∀ f : Format, t.names = [f.entryName] → isNameable (place ++ t.names) = false := by
  constructor
  · rintro ⟨hfile, hkept, hwanted⟩
    refine ⟨hfile, hwanted, fun f hf => ?_⟩
    cases hname : isNameable (place ++ t.names) with
    | false => rfl
    | true =>
      refine absurd ((h.mem_skipPlaces hs).2 ⟨f, by rw [hf], hname, ?_⟩) hkept
      rw [hfile]
      simp
  · rintro ⟨hfile, hwanted, hdefault⟩
    refine ⟨hfile, fun hskip => ?_, hwanted⟩
    obtain ⟨f, hq, hname, -⟩ := (h.mem_skipPlaces hs).1 hskip
    rw [hdefault f (List.append_cancel_left hq)] at hname
    cases hname

/-- The manifests are unseen if no template has a default name. -/
theorem unseen_iff (h : Home fs dir place) (hs : AtHome s dir) :
    Unseen fs place s.excludes ↔
      ∀ t, IsTemplate fs.root place s.excludes (skipPlaces fs s.skipPaths) t →
        ∀ f : Format, t.names ≠ [f.entryName] := by
  simp only [h.isTemplate_iff hs]
  constructor
  · rintro hunseen t ⟨hfile, hwanted, hdefault⟩ f hf
    have hname := hdefault f hf
    rw [hf] at hfile hname
    rw [Template.path, hf] at hwanted
    rcases hunseen f _ hfile with hnameable | hexcluded
    · rw [hname] at hnameable
      cases hnameable
    · rw [hwanted] at hexcluded
      cases hexcluded
  · intro hall f c hfile
    cases hname : isNameable (place ++ [f.entryName]) with
    | true => exact .inl rfl
    | false =>
      cases hexcluded : s.excludes.excludes (Path.ofNames [f.entryName]) with
      | true => exact .inr rfl
      | false => exact absurd rfl (hall ⟨[f.entryName], c⟩ ⟨hfile, hexcluded, fun _ _ => hname⟩ f)

theorem generate_eq_ok (h : Home fs dir place) (hs : AtHome s dir) :
    (generate fs s).result = .ok g ↔
      ∃ ts, Walkable fs.root place ∧ Templates fs s place ts ∧
        (build s place ts).result = .ok g := by
  rw [Generation.generate_eq_ok h.valid, hs.reference]
  constructor
  · rintro ⟨place', ts, hplace, -, hwalkable, hts, hbuild⟩
    cases Option.some.inj (h.reference.symm.trans hplace)
    exact ⟨ts, hwalkable, hts, hbuild⟩
  · rintro ⟨ts, hwalkable, hts, hbuild⟩
    exact ⟨place, ts, h.reference, h.isDir, hwalkable, hts, hbuild⟩

theorem unseen_of_generate (h : Home fs dir place) (hs : AtHome s dir)
    (hok : (generate fs s).result = .ok g) : Unseen fs place s.excludes := by
  obtain ⟨ts, -, hts, hbuild⟩ := (h.generate_eq_ok hs).1 hok
  obtain ⟨-, hnone, -⟩ := build_ok hbuild
  refine (h.unseen_iff hs).2 fun t ht f hf => ?_
  obtain ⟨hfile, -, hdefault⟩ := (h.isTemplate_iff hs).1 ht
  have hreadable := (readings_eq_none hnone).1 t ((hts.mem t).2 ht)
  rw [Readable, Discovery.pathFrom_ofRoot h.valid hfile] at hreadable
  have hname := hdefault f hf
  rw [isNameable, hreadable] at hname
  cases hname

/-- No manifest lists a manifest of the reference directory. -/
theorem not_listed (h : Home fs dir place) (hs : AtHome s dir)
    (hok : (generate fs s).result = .ok g) (f : Format) :
    f.fileName ∉ g.manifest.templatePaths := by
  intro hlisted
  have hunseen := (h.unseen_iff hs).1 (h.unseen_of_generate hs hok)
  obtain ⟨ts, -, hts, hbuild⟩ := (h.generate_eq_ok hs).1 hok
  obtain ⟨-, hnone, rfl⟩ := build_ok hbuild
  have hperm := Hierarchy.templatePaths_perm s.exitOnError (readings place ts).1
  have hid := hperm.mem_iff.1 hlisted
  rw [(readings_eq_none hnone).2] at hid
  obtain ⟨t, ht, hid⟩ := List.mem_map.1 hid
  have htemplate := (hts.mem t).1 ht
  have hvalid := Node.validName_of_get? h.valid (Node.entryAt_eq_file.1 htemplate.file)
  have hne : t.names ≠ [] := by
    intro hnil
    have hfile := htemplate.file
    rw [hnil, List.append_nil, h.isDir] at hfile
    cases hfile
  refine hunseen t htemplate f ?_
  exact Template.names_of_id (fun n hn => hvalid n (List.mem_append_right _ hn)) hne
    (by cases f <;> decide) (by cases f <;> decide) hid

end Home

/-! ## What a generation does not depend on -/

/-- The disk `fs'` is `fs`, but for files under the default names in the directory at `place`. -/
structure Refreshed (place : List Name) (fs fs' : FileSystem) : Prop where
  here : fs'.here = fs.here
  valid : fs.root.Valid → fs'.root.Valid
  kept : ∀ q e, fs.root.entryAt q = some e → ∃ e', fs'.root.entryAt q = some e' ∧ e.Alike e'
  fresh : ∀ q e, fs'.root.entryAt q = some e →
    fs.root.entryAt q = some e ∨
      ∃ (f : Format) (c : Octets), q = place ++ [f.entryName] ∧ e = .file c

namespace Refreshed

theorem refl (place : List Name) (fs : FileSystem) : Refreshed place fs fs where
  here := rfl
  valid := id
  kept := fun _ e h => ⟨e, h, .inl rfl⟩
  fresh := fun _ _ h => .inl h

theorem trans {fs'' : FileSystem} (h : Refreshed place fs fs') (h' : Refreshed place fs' fs'') :
    Refreshed place fs fs'' where
  here := h'.here.trans h.here
  valid := h'.valid ∘ h.valid
  kept := by
    intro q e hq
    obtain ⟨e', hq', halike⟩ := h.kept q e hq
    obtain ⟨e'', hq'', halike'⟩ := h'.kept q e' hq'
    exact ⟨e'', hq'', halike.trans halike'⟩
  fresh := by
    intro q e hq
    rcases h'.fresh q e hq with hq' | hnew
    · exact h.fresh q e hq'
    · exact .inr hnew

theorem dir_iff (h : Refreshed place fs fs') (q : List Name) :
    fs'.root.entryAt q = some .dir ↔ fs.root.entryAt q = some .dir := by
  constructor
  · intro hq
    rcases h.fresh q _ hq with hq | ⟨f, c, -, he⟩
    · exact hq
    · cases he
  · intro hq
    obtain ⟨e', hq', rfl | ⟨c, c', he, -⟩⟩ := h.kept q _ hq
    · exact hq'
    · cases he

/-- Away from the default names nothing is different. -/
theorem entryAt_eq (h : Refreshed place fs fs') {q : List Name}
    (hq : ∀ f : Format, q ≠ place ++ [f.entryName]) (e : Entry) :
    fs'.root.entryAt q = some e ↔ fs.root.entryAt q = some e := by
  have hback : ∀ e, fs'.root.entryAt q = some e → fs.root.entryAt q = some e := by
    intro e he
    rcases h.fresh q e he with he | ⟨f, c, hdefault, -⟩
    · exact he
    · exact absurd hdefault (hq f)
  refine ⟨hback e, fun he => ?_⟩
  obtain ⟨e', he', -⟩ := h.kept q e he
  cases (hback e' he').symm.trans he
  exact he'

theorem home (h : Refreshed place fs fs') (hhome : Home fs dir place) : Home fs' dir place where
  valid := h.valid hhome.valid
  reference := by
    obtain ⟨hp, hleads, hentry⟩ := FileSystem.canonical?_eq_some.1 hhome.reference
    refine FileSystem.canonical?_eq_some.2 ⟨hp, ?_, ?_⟩
    · rw [FileSystem.NamesPlace, FileSystem.startOf_eq h.here]
      exact Leads.of_alike h.kept hleads
    · rw [(h.dir_iff place).2 hhome.isDir]
      simp
  isDir := (h.dir_iff place).2 hhome.isDir
  noLink := by
    intro f target hlink
    rcases h.fresh _ _ hlink with hlink | ⟨f', c, -, he⟩
    · exact hhome.noLink f target hlink
    · cases he

variable (h : Refreshed place fs fs') (hhome : Home fs dir place) (hs : AtHome s dir)
  (hunseen : Unseen fs' place s.excludes)
include h hhome hs hunseen

theorem isTemplate_iff :
    IsTemplate fs'.root place s.excludes (skipPlaces fs' s.skipPaths) t ↔
      IsTemplate fs.root place s.excludes (skipPlaces fs s.skipPaths) t := by
  have hhome' := h.home hhome
  have hnone := (hhome'.unseen_iff hs).1 hunseen
  have haway : (∀ f : Format, t.names ≠ [f.entryName]) →
      ∀ f : Format, place ++ t.names ≠ place ++ [f.entryName] :=
    fun hne f heq => hne f (List.append_cancel_left heq)
  constructor
  · intro ht
    have hne := hnone t ht
    obtain ⟨hfile, hwanted, -⟩ := (hhome'.isTemplate_iff hs).1 ht
    exact (hhome.isTemplate_iff hs).2 ⟨(h.entryAt_eq (haway hne) _).1 hfile, hwanted,
      fun f hf => absurd hf (hne f)⟩
  · intro ht
    obtain ⟨hfile, hwanted, hdefault⟩ := (hhome.isTemplate_iff hs).1 ht
    -- Under a default name it would be a template of the other disk, with other content.
    have hne : ∀ f : Format, t.names ≠ [f.entryName] := by
      intro f hf
      obtain ⟨e', hfile', halike⟩ := h.kept _ _ hfile
      obtain ⟨c', rfl⟩ := halike.file
      exact hnone ⟨t.names, c'⟩ ((hhome'.isTemplate_iff hs).2 ⟨hfile', hwanted, hdefault⟩) f hf
    exact (hhome'.isTemplate_iff hs).2 ⟨(h.entryAt_eq (haway hne) _).2 hfile, hwanted,
      fun f hf => absurd hf (hne f)⟩

theorem generate_iff :
    (generate fs' s).result = .ok g ↔ (generate fs s).result = .ok g := by
  have hwalkable : Walkable fs'.root place ↔ Walkable fs.root place := by
    constructor
    · exact fun hw => ⟨hw.start, fun names hd => hw.below names ((h.dir_iff _).2 hd)⟩
    · exact fun hw => ⟨hw.start, fun names hd => hw.below names ((h.dir_iff _).1 hd)⟩
  have htemplates : ∀ ts, Templates fs' s place ts ↔ Templates fs s place ts := by
    have hiff := fun t => h.isTemplate_iff hhome hs hunseen (t := t)
    intro ts
    constructor
    · exact fun hts => ⟨hts.ordered, fun t => (hts.mem t).trans (hiff t)⟩
    · exact fun hts => ⟨hts.ordered, fun t => (hts.mem t).trans (hiff t).symm⟩
  simp only [(h.home hhome).generate_eq_ok hs, hhome.generate_eq_ok hs, hwalkable, htemplates]

end Refreshed

/-- In another format the same manifest is generated. -/
theorem Home.generate_reformat (h : Home fs dir place) (hs : AtHome s dir) (hs' : AtHome s' dir)
    (hexcludes : s'.excludes = s.excludes) (hstrict : s'.exitOnError = s.exitOnError)
    (hok : (generate fs s).result = .ok g) :
    (generate fs s').result = .ok { g with rendered := g.manifest.render s'.format } := by
  obtain ⟨ts, hwalkable, hts, hbuild⟩ := (h.generate_eq_ok hs).1 hok
  refine (h.generate_eq_ok hs').2
    ⟨ts, hwalkable, ⟨hts.ordered, fun t => ?_⟩, build_reformat hstrict hbuild⟩
  rw [hts.mem, h.isTemplate_iff hs, h.isTemplate_iff hs', hexcludes]

end Generation
end RefManifest
