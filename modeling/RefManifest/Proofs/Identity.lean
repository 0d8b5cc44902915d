import Mathlib.Data.List.Nodup
import RefManifest.Proofs.Naming

/-!
# RefManifest.Proofs.Identity

Which templates can be told apart in the manifest.

The manifest is text, so a path stands there as a reader would see it, with a mark for whatever is
not well formed in a name. Joining the names keeps them apart: no name holds a slash, and reading
makes none. So two templates share a path exactly if their names read the same one by one
(`id_eq_iff`), and that takes a name that is not well formed (`names_eq_of_readNames`).

`templates_identified` is the account of a whole run: which paths the manifest lists, and when none
of them is listed twice. `ill_formed_names_collide` is a run that lists one twice.
-/

namespace RefManifest

open Text Disk

theorem Path.splitOn_slashed {names : List Name} (hne : names ≠ [])
    (h : ∀ n ∈ names, Node.ValidName n) :
    List.splitOn '/' (Path.ofNames names).slashed = names.map Utf8.decodeLossy := by
  rw [Path.slashed_ofNames h]
  refine List.splitOn_intercalate '/' (fun text htext => ?_) (by simpa using hne)
  obtain ⟨n, hn, rfl⟩ := List.mem_map.1 htext
  obtain ⟨-, -, -, hslash, -⟩ := h n hn
  exact slash_not_mem_decodeLossy hslash

namespace Template

variable {t u : Template}

/-- The names on the way to the template, as a reader sees them. -/
def readNames (t : Template) : List (List Char) := t.names.map Utf8.decodeLossy

theorem id_eq_iff (ht : t.names ≠ []) (hu : u.names ≠ []) (htn : ∀ n ∈ t.names, Node.ValidName n)
    (hun : ∀ n ∈ u.names, Node.ValidName n) : t.id = u.id ↔ t.readNames = u.readNames := by
  constructor
  · intro h
    have hslashed : t.path.slashed = u.path.slashed := String.ofList_injective h
    have hsplit := congrArg (List.splitOn '/') hslashed
    rwa [path, path, Path.splitOn_slashed ht htn, Path.splitOn_slashed hu hun] at hsplit
  · intro h
    rw [id, id, Path.toSlash, Path.toSlash, path, path, Path.slashed_ofNames htn,
      Path.slashed_ofNames hun]
    exact congrArg (fun names => String.ofList (List.intercalate ['/'] names)) h

/-- Names that are well formed are read without loss, so they are the same if they read the
same. -/
theorem names_eq_of_readNames (h : t.readNames = u.readNames)
    (hwell : ∀ n ∈ t.names ++ u.names, Utf8.decode? n ≠ none) : t.names = u.names := by
  have hback : ∀ names : List Name, (∀ n ∈ names, Utf8.decode? n ≠ none) →
      (names.map Utf8.decodeLossy).map Utf8.encode = names := by
    intro names hnames
    rw [List.map_map]
    exact (List.map_congr_left fun n hn => Utf8.encode_decodeLossy (hnames n hn)).trans
      (List.map_id names)
  rw [← hback t.names fun n hn => hwell n (List.mem_append_left _ hn),
    ← hback u.names fun n hn => hwell n (List.mem_append_right _ hn)]
  exact congrArg (List.map Utf8.encode) h

end Template

namespace Generation

open Hierarchy

variable {fs : FileSystem} {s : Settings} {place : List Name} {ts : List Template} {t u : Template}

theorem Found.names_nodup (hx : fs.root.Valid) (h : Found fs s place ts) :
    (ts.map (·.names)).Nodup := by
  have hdir := (locate_eq_ok.1 h.located).2
  have hlisted := ((Discovery.discover_eq_ok hx hdir (validName_of_skipPlaces hx)).1 h.listed).2
  exact Node.nodup_of_sorted Template.names hlisted.ordered

theorem Found.id_eq_iff (hx : fs.root.Valid) (h : Found fs s place ts) (ht : t ∈ ts)
    (hu : u ∈ ts) : t.id = u.id ↔ t.readNames = u.readNames :=
  Template.id_eq_iff (h.names_ne_nil hx ht) (h.names_ne_nil hx hu)
    (fun n hn => h.validName hx ht n (List.mem_append_right _ hn))
    fun n hn => h.validName hx hu n (List.mem_append_right _ hn)

theorem templatePaths_of_generate {g : Generated} (h : (generate fs s).result = .ok g) :
    ∃ place ts, Found fs s place ts ∧
      g.manifest.templatePaths.Perm (ts.map Template.id) := by
  obtain ⟨place, ts, rs, hfound, hreadings, hmanifest⟩ := manifest_of_generate_ok h
  have hids : rs.map (·.id) = ts.map Template.id := by
    have hnone : (readings place ts).2 = none := by rw [hreadings]
    have hread := (readings_eq_none hnone).2
    rwa [hreadings] at hread
  refine ⟨place, ts, hfound, ?_⟩
  rw [hmanifest, ← hids]
  exact templatePaths_perm s.exitOnError rs

/-- What identifies a template in the manifest of a run. The manifest lists the path of each
template once. Two templates share a path exactly if their names read the same one by one; if they
are not the same template, some name of theirs is not well formed. So no path is listed twice
exactly if no two templates read the same, and that is so whenever all names are well formed. -/
theorem templates_identified (hx : fs.root.Valid) {g : Generated}
    (h : (generate fs s).result = .ok g) :
    ∃ place ts, Found fs s place ts ∧ (ts.map (·.names)).Nodup ∧
      g.manifest.templatePaths.Perm (ts.map Template.id) ∧
      (∀ t ∈ ts, ∀ u ∈ ts, t.id = u.id ↔ t.readNames = u.readNames) ∧
      (∀ t ∈ ts, ∀ u ∈ ts, t.id = u.id → t ≠ u →
        ∃ n ∈ t.names ++ u.names, Utf8.decode? n = none) ∧
      (g.manifest.templatePaths.Nodup ↔
        ∀ t ∈ ts, ∀ u ∈ ts, t.readNames = u.readNames → t = u) ∧
      ((∀ t ∈ ts, ∀ n ∈ t.names, Utf8.decode? n ≠ none) → g.manifest.templatePaths.Nodup) := by
  obtain ⟨place, ts, hfound, hpaths⟩ := templatePaths_of_generate h
  have hnodup := hfound.names_nodup hx
  have hsame : ∀ t ∈ ts, ∀ u ∈ ts, t.id = u.id ↔ t.readNames = u.readNames :=
    fun t ht u hu => hfound.id_eq_iff hx ht hu
  have hwell : ∀ t ∈ ts, ∀ u ∈ ts, t.readNames = u.readNames →
      (∀ n ∈ t.names ++ u.names, Utf8.decode? n ≠ none) → t = u :=
    fun t ht u hu hread hnames =>
      List.inj_on_of_nodup_map hnodup ht hu (Template.names_eq_of_readNames hread hnames)
  have hdistinct : g.manifest.templatePaths.Nodup ↔
      ∀ t ∈ ts, ∀ u ∈ ts, t.readNames = u.readNames → t = u := by
    rw [hpaths.nodup_iff, List.nodup_map_iff_inj_on hnodup.of_map]
    exact forall₂_congr fun t ht => forall₂_congr fun u hu => imp_congr_left (hsame t ht u hu)
  refine ⟨place, ts, hfound, hnodup, hpaths, hsame, fun t ht u hu hid hne => ?_, hdistinct,
    fun hall => hdistinct.2 fun t ht u hu hread => hwell t ht u hu hread fun n hn => ?_⟩
  · by_contra hnames
    exact hne (hwell t ht u hu ((hsame t ht u hu).1 hid) fun n hn hnone => hnames ⟨n, hn, hnone⟩)
  · rcases List.mem_append.1 hn with hn | hn
    · exact hall t ht n hn
    · exact hall u hu n hn

section Collision

/-- A directory of one component that holds two empty files. -/
def pairDisk (a b : Name) : FileSystem :=
  ⟨.dir [(toOctets "core", .dir [(toOctets "dns", .dir [(a, .file []), (b, .file [])])])], []⟩

def pairSettings : Settings := ⟨Path.ofString ".", false, .yaml, ⟨[]⟩, []⟩

def pairTemplates (a b : Name) : List Template :=
  [⟨[toOctets "core", toOctets "dns", a], []⟩, ⟨[toOctets "core", toOctets "dns", b], []⟩]

theorem locate_pair (a b : Name) : locate (pairDisk a b) pairSettings.referenceDir = .ok [] := by
  rfl

/-- What a run generates for the two files, if their templates can be filed. -/
theorem exists_generated_pair {a b : Name} {paths : List String}
    (hlisted : (Discovery.discover (pairDisk a b) (Path.ofRoot []) pairSettings.excludes
      (canonicalSkips (pairDisk a b) pairSettings.skipPaths)).result = .ok (pairTemplates a b))
    (hfiled : (fileAll [] (start false) (pairTemplates a b)).result.toOption.map
      (·.finish.templatePaths) = some paths) :
    ∃ g, (generate (pairDisk a b) pairSettings).result = .ok g ∧
      g.manifest.templatePaths = paths := by
  cases hresult : (fileAll [] (start false) (pairTemplates a b)).result with
  | error f =>
    rw [hresult] at hfiled
    cases hfiled
  | ok filed =>
    obtain ⟨g, hg, hmanifest⟩ := exists_generated_of_filed (locate_pair a b) hlisted hresult
    rw [hresult] at hfiled
    refine ⟨g, hg, ?_⟩
    rw [hmanifest]
    exact Option.some.inj hfiled

/-- Two names that are not well formed and read the same. -/
theorem ill_formed_names_collide :
    (pairDisk [0xFE] [0xFF]).root.Valid ∧
    ∃ g, (generate (pairDisk [0xFE] [0xFF]) pairSettings).result = .ok g ∧
      g.manifest.templatePaths = ["core/dns/\uFFFD", "core/dns/\uFFFD"] ∧
      ¬ g.manifest.templatePaths.Nodup := by
  obtain ⟨g, hg, hpaths⟩ := @exists_generated_pair [0xFE] [0xFF]
    ["core/dns/\uFFFD", "core/dns/\uFFFD"] rfl (by decide +kernel)
  refine ⟨by decide, g, hg, hpaths, ?_⟩
  rw [hpaths]
  decide

/-- A name that is not well formed beside one that reads otherwise. -/
theorem templates_identified_pair :
    (pairDisk [0xC3] [0xC3, 0xA9]).root.Valid ∧
    ∃ g, (generate (pairDisk [0xC3] [0xC3, 0xA9]) pairSettings).result = .ok g ∧
      g.manifest.templatePaths.Nodup := by
  have hvalid : (pairDisk [0xC3] [0xC3, 0xA9]).root.Valid := by decide
  have hlisted : (Discovery.discover (pairDisk [0xC3] [0xC3, 0xA9]) (Path.ofRoot [])
      pairSettings.excludes (canonicalSkips (pairDisk [0xC3] [0xC3, 0xA9])
        pairSettings.skipPaths)).result = .ok (pairTemplates [0xC3] [0xC3, 0xA9]) := rfl
  obtain ⟨g, hg, -⟩ := @exists_generated_pair [0xC3] [0xC3, 0xA9]
    ["core/dns/\uFFFD", "core/dns/é"] hlisted (by decide +kernel)
  obtain ⟨place, ts, hfound, -, -, -, -, hdistinct, -⟩ := templates_identified hvalid hg
  obtain ⟨rfl, rfl⟩ := Found.unique ⟨locate_pair _ _, hlisted⟩ hfound
  have hread : (pairTemplates [0xC3] [0xC3, 0xA9]).map Template.readNames =
      [["core".toList, "dns".toList, ['\uFFFD']], ["core".toList, "dns".toList, ['é']]] := by decide
  refine ⟨hvalid, g, hg, hdistinct.2 fun t ht u hu => ?_⟩
  have hnodup : ((pairTemplates [0xC3] [0xC3, 0xA9]).map Template.readNames).Nodup := by
    rw [hread]
    decide
  exact List.inj_on_of_nodup_map hnodup ht hu

end Collision
end Generation
end RefManifest
