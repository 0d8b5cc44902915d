import RefManifest.Proofs.CommandLine.Verifying
import RefManifest.Proofs.Run

/-!
# RefManifest.Proofs.UpToDate

Whether the manifest that was just written is up to date.

A run of `generate` changes the disk that a run of `check` then looks at: it makes directories and
puts a file at the output path, and both can change where other paths lead. `Delivered` is what a
successful run found and left behind, and the facts about paths are those of `Wrote`.

* `Delivered.passes_iff`: the check passes exactly if the paths of the run still lead where they
  led and the templates that are found now give the same text.
* `Delivered.isTemplate_iff`: if the output path names a file of its own, every template that is
  found afterwards was found before, and a template is lost exactly if a skip path leads to it now.
* `Delivered.not_mem_skipPlaces`: no template is lost if no directory had to be made.
-/

namespace RefManifest

open Text Disk Generation

namespace FileSystem.Wrote

variable {fs after : FileSystem} {target : Path} {out q : List Name} {text : String}

theorem readText_eq (h : fs.Wrote after target out (toOctets text))
    (hq : after.locate true target = .ok q) : after.readText target = .ok text := by
  cases h.only q (locate_eq_ok.1 hq).2
  exact readText_eq_ok.2 (read_eq_ok.2 ⟨out, hq, h.tree.now⟩)

theorem readable_kept (h : fs.Wrote after target out (toOctets text))
    (hlink : ∀ t, fs.root.entryAt out ≠ some (.link t)) {file : Path} {before : String}
    (hread : fs.readText file = .ok before) : ∃ now, after.readText file = .ok now := by
  obtain ⟨q, hq, hentry⟩ := read_eq_ok.1 (readText_eq_ok.1 hread)
  have hq' := h.locate_kept hlink hq
  by_cases hne : q = out
  · subst hne
    exact ⟨text, readText_eq_ok.2 (read_eq_ok.2 ⟨q, hq', h.tree.now⟩)⟩
  · exact ⟨before, readText_eq_ok.2 (read_eq_ok.2 ⟨q, hq', h.tree.kept _ _ hne hentry⟩)⟩

end FileSystem.Wrote

namespace Invocation

variable {i : Invocation} {args : ReferenceArgs} {fs after : FileSystem} {p : Plan}
  {place out : List Name} {ts ts' : List Template} {g : Generated}

/-- What a run of `generate` that succeeds has found, and what it has left behind. -/
structure Delivered (i : Invocation) (fs after : FileSystem) (p : Plan) (place out : List Name)
    (ts : List Template) (g : Generated) : Prop where
  plan : i.plan fs = .ok p
  valid : fs.root.Valid
  reference : fs.canonical? p.settings.referenceDir = some place
  isDir : fs.root.entryAt place = some .dir
  walkable : Walkable fs.root place
  templates : Templates fs p.settings place ts
  built : (build p.settings place ts).result = .ok g
  wrote : fs.Wrote after p.output out (toOctets g.rendered)

theorem delivered_of_run (hx : fs.root.Valid) (hcommand : i.command = .generate args false)
    (h : (i.run fs).trouble = none) :
    ∃ p place out ts g, i.Delivered fs (i.run fs).disk p place out ts g := by
  obtain ⟨p, g, hplan, hgenerate, hwrite⟩ := (run_generate hcommand).1 ⟨h, rfl⟩
  obtain ⟨place, ts, hplace, hdir, hwalkable, hts, hbuild⟩ := (generate_eq_ok hx).1 hgenerate
  obtain ⟨out, hwrote⟩ := FileSystem.safeWrite_wrote hwrite
  exact ⟨p, place, out, ts, g, hplan, hx, hplace, hdir, hwalkable, hts, hbuild, hwrote⟩

/-- The run of `generate` from `fs` to `after` can be repeated: what it looked at is still there,
and gives the same text. -/
structure Repeats (i : Invocation) (p : Plan) (fs after : FileSystem) : Prop where
  config : ∀ file, i.config = some file → after.readText file = fs.readText file
  output : ∃ q, after.locate true p.output = .ok q
  reference : after.canonical? p.settings.referenceDir = fs.canonical? p.settings.referenceDir
  walkable : ∀ place, fs.canonical? p.settings.referenceDir = some place →
    Walkable after.root place
  text : ∀ place ts ts', fs.canonical? p.settings.referenceDir = some place →
    Templates fs p.settings place ts → Templates after p.settings place ts' →
      textOf p.settings place ts' = textOf p.settings place ts

/-- The configuration file, if it can be read after the run, reads as before. -/
def KeepsConfig (i : Invocation) (fs after : FileSystem) : Prop :=
  ∀ file text, i.config = some file → after.readText file = .ok text →
    fs.readText file = .ok text

/-- The output path leads to the place that was written, and no link was replaced there. -/
structure OwnOutput (fs after : FileSystem) (p : Plan) (out : List Name) : Prop where
  named : after.canonical? p.output = some out
  noLink : ∀ t, fs.root.entryAt out ≠ some (.link t)

namespace Delivered

theorem textOf_eq (d : i.Delivered fs after p place out ts g) :
    textOf p.settings place ts = .ok g.rendered := by
  rw [textOf, d.built]
  rfl

/-- The reference directory is still there if its path leads to a directory. -/
theorem place_eq (d : i.Delivered fs after p place out ts g) {place' : List Name}
    (hplace : after.canonical? p.settings.referenceDir = some place')
    (hdir : after.root.entryAt place' = some .dir) : place' = place := by
  rcases d.wrote.canonical?_agree d.reference hplace with heq | rfl
  · exact heq
  · rw [d.wrote.tree.now] at hdir
    cases hdir

theorem repeats_iff (d : i.Delivered fs after p place out ts g) :
    i.Repeats p fs after ↔
      (∀ file, i.config = some file → after.readText file = fs.readText file) ∧
      (∃ q, after.locate true p.output = .ok q) ∧
      after.canonical? p.settings.referenceDir = some place ∧ Walkable after.root place ∧
      ∀ ts', Templates after p.settings place ts' →
        textOf p.settings place ts' = .ok g.rendered := by
  constructor
  · intro h
    refine ⟨h.config, h.output, h.reference.trans d.reference, h.walkable place d.reference, ?_⟩
    intro ts' hts'
    rw [h.text place ts ts' d.reference d.templates hts', d.textOf_eq]
  · rintro ⟨hconfig, houtput, hplace, hwalk, htext⟩
    refine ⟨hconfig, houtput, hplace.trans d.reference.symm, fun place₁ h₁ => ?_,
      fun place₁ ts₁ ts₁' h₁ hts₁ hts₁' => ?_⟩
    · cases Option.some.inj (d.reference.symm.trans h₁)
      exact hwalk
    · cases Option.some.inj (d.reference.symm.trans h₁)
      rw [hts₁.unique d.templates fun _ => Iff.rfl, d.textOf_eq]
      exact htext ts₁' hts₁'

theorem repeats_of_passes (d : i.Delivered fs after p place out ts g)
    (hconfig : i.KeepsConfig fs after) (h : (i.verifying.run after).trouble = none) :
    i.Repeats p fs after := by
  have hcheck : i.verifying.command = .check i.command.args := rfl
  obtain ⟨p', g', hplan, hgenerate, hread⟩ := (run_check hcheck).1 h
  have hkept : ∀ file, i.config = some file → after.readText file = fs.readText file := by
    intro file hfile
    obtain ⟨text, htext⟩ := readText_of_plan hfile hplan
    rw [htext, hconfig file text hfile htext]
  -- The same settings, so the check looks at the output that was written.
  have hsame : i.plan after = .ok p := (plan_congr hkept).trans d.plan
  cases Except.ok.inj (hplan.symm.trans hsame)
  obtain ⟨q, hq, -⟩ := FileSystem.read_eq_ok.1 (FileSystem.readText_eq_ok.1 hread)
  have hrendered : g'.rendered = g.rendered := by
    rw [d.wrote.readText_eq hq] at hread
    exact (Except.ok.inj hread).symm
  obtain ⟨place', ts', hplace, hdir, hwalk, hts', hbuild⟩ :=
    (generate_eq_ok (d.wrote.valid d.valid)).1 hgenerate
  cases d.place_eq hplace hdir
  refine d.repeats_iff.2 ⟨hkept, ⟨q, hq⟩, hplace, hwalk, fun ts₁ hts₁ => ?_⟩
  rw [hts₁.unique hts' fun _ => Iff.rfl]
  exact textOf_eq_ok.2 ⟨g', hbuild, hrendered⟩

theorem passes_of_repeats (d : i.Delivered fs after p place out ts g)
    (h : i.Repeats p fs after) : (i.verifying.run after).trouble = none := by
  have hcheck : i.verifying.command = .check i.command.args := rfl
  have hvalid : after.root.Valid := d.wrote.valid d.valid
  obtain ⟨hconfig, ⟨q, hq⟩, hplace, hwalk, htext⟩ := d.repeats_iff.1 h
  have hdir := d.wrote.tree.dir_kept d.isDir
  obtain ⟨ts', hts'⟩ := exists_templates hvalid p.settings hdir
  obtain ⟨g', hbuild, hrendered⟩ := textOf_eq_ok.1 (htext ts' hts')
  have hgenerate : (generate after p.settings).result = .ok g' :=
    (generate_eq_ok hvalid).2 ⟨place, ts', hplace, hdir, hwalk, hts', hbuild⟩
  have hread := d.wrote.readText_eq hq
  rw [← hrendered] at hread
  exact (run_check hcheck).2 ⟨p, g', (plan_congr hconfig).trans d.plan, hgenerate, hread⟩

/-- After a run of `generate`, `check` with the same arguments succeeds
exactly if the run can be repeated. -/
theorem passes_iff (d : i.Delivered fs after p place out ts g) (hconfig : i.KeepsConfig fs after) :
    (i.verifying.run after).trouble = none ↔ i.Repeats p fs after :=
  ⟨d.repeats_of_passes hconfig, d.passes_of_repeats⟩

theorem isTemplate_iff (d : i.Delivered fs after p place out ts g) (hown : OwnOutput fs after p out)
    {t : Template} :
    IsTemplate after.root place p.settings.excludes (skipPlaces after p.settings.skipPaths) t ↔
      t ∈ ts ∧ place ++ t.names ∉ skipPlaces after p.settings.skipPaths := by
  have hout : out ∈ skipPlaces after p.settings.skipPaths :=
    mem_skipPlaces.2 ⟨p.output, (plan_eq_ok d.plan).2, hown.named⟩
  rw [d.templates.mem]
  constructor
  · rintro ⟨hfile, hkept, hwanted⟩
    have hne : place ++ t.names ≠ out := fun e => hkept (e ▸ hout)
    refine ⟨⟨d.wrote.tree.file_back hne hfile, fun hskip => hkept ?_, hwanted⟩, hkept⟩
    obtain ⟨skip, hmem, hleads⟩ := mem_skipPlaces.1 hskip
    exact mem_skipPlaces.2 ⟨skip, hmem, d.wrote.canonical?_kept hown.noLink hleads⟩
  · rintro ⟨⟨hfile, -, hwanted⟩, hkept⟩
    have hne : place ++ t.names ≠ out := fun e => hkept (e ▸ hout)
    exact ⟨d.wrote.tree.kept _ _ hne hfile, hkept, hwanted⟩

theorem templates_after (d : i.Delivered fs after p place out ts g)
    (hown : OwnOutput fs after p out) :
    Templates after p.settings place
      (ts.filter fun t => place ++ t.names ∉ skipPlaces after p.settings.skipPaths) where
  ordered := d.templates.ordered.filter _
  mem := fun t => by rw [d.isTemplate_iff hown, List.mem_filter, decide_eq_true_eq]

/-- Where the run looked is still there, if the output is a file of its own. -/
theorem repeats_iff_text (d : i.Delivered fs after p place out ts g)
    (hown : OwnOutput fs after p out) (hconfig : i.KeepsConfig fs after)
    (hwalk : Walkable after.root place) :
    i.Repeats p fs after ↔
      textOf p.settings place
          (ts.filter fun t => place ++ t.names ∉ skipPlaces after p.settings.skipPaths) =
        textOf p.settings place ts := by
  have hafter := d.templates_after hown
  rw [d.repeats_iff, d.textOf_eq]
  constructor
  · rintro ⟨-, -, -, -, htext⟩
    exact htext _ hafter
  · intro htext
    have hkept : ∀ file, i.config = some file → after.readText file = fs.readText file := by
      intro file hfile
      obtain ⟨before, hbefore⟩ := readText_of_plan hfile d.plan
      obtain ⟨text, htext⟩ := d.wrote.readable_kept hown.noLink hbefore
      rw [htext, hconfig file text hfile htext]
    have hreached := d.wrote.reached hown.noLink
    have houtput := FileSystem.locate_eq_ok.2 ⟨d.wrote.admissible, hreached⟩
    refine ⟨hkept, ⟨out, houtput⟩, ?_, hwalk, fun ts' hts' => ?_⟩
    · exact d.wrote.canonical?_kept hown.noLink d.reference
    · rw [hts'.unique hafter fun _ => Iff.rfl, htext]

theorem not_mem_skipPlaces (d : i.Delivered fs after p place out ts g)
    (hdirs : ∀ q, after.root.entryAt q = some .dir → fs.root.entryAt q = some .dir) :
    ∀ t ∈ ts, place ++ t.names ∉ skipPlaces after p.settings.skipPaths := by
  intro t ht hskip
  obtain ⟨hfile, hkept, -⟩ := (d.templates.mem t).1 ht
  obtain ⟨skip, hmem, hleads⟩ := mem_skipPlaces.1 hskip
  have hback : fs.canonical? skip = some (place ++ t.names) := by
    rcases d.wrote.canonical?_back hdirs hleads with hback | heq
    · exact hback
    · rw [heq] at hfile
      exact d.wrote.canonical?_back_of_file hdirs hfile hleads
  exact hkept (mem_skipPlaces.2 ⟨skip, hmem, hback⟩)

theorem walkable_after (d : i.Delivered fs after p place out ts g)
    (hdirs : ∀ q, after.root.entryAt q = some .dir → fs.root.entryAt q = some .dir) :
    Walkable after.root place :=
  ⟨d.walkable.start, fun names hdir => d.walkable.below names (hdirs _ hdir)⟩

theorem passes_iff_not_skipped (d : i.Delivered fs after p place out ts g)
    (hown : OwnOutput fs after p out) (hconfig : i.KeepsConfig fs after)
    (hwalk : Walkable after.root place) :
    (i.verifying.run after).trouble = none ↔
      ∀ t ∈ ts, place ++ t.names ∉ skipPlaces after p.settings.skipPaths := by
  rw [d.passes_iff hconfig, d.repeats_iff_text hown hconfig hwalk]
  -- A template that is skipped now is missing from the text.
  constructor
  · intro htext t ht hskip
    refine textOf_ne_of_sublist List.filter_sublist ?_ d.textOf_eq (htext.trans d.textOf_eq)
    exact List.length_filter_lt_length_iff_exists.2 ⟨t, ht, by simpa using hskip⟩
  · intro hall
    rw [List.filter_eq_self.2 fun t ht => by simpa using hall t ht]

theorem out_eq (d : i.Delivered fs after p place out ts g) {out' : List Name}
    (hown : OwnOutput fs after p out') : out' = out :=
  d.wrote.only out' (FileSystem.canonical?_eq_some.1 hown.named).2.1.leadsTo

end Delivered

/-- A check after a run of `generate`. Let a run of `generate` end well and leave the
configuration file alone. The same words with `check` ask for the check, and it ends well exactly
if the run can be repeated. If the output path leads to the file that was written, where no link
was, and no new directory is out of reach, this comes down to one condition: no template that was
found is at a place that a skip path leads to now. So the check ends well if the output is such a
file and no directory had to be made. -/
theorem check_after_generate {env : Environment} {words : List String}
    (hparse : CommandLine.parse env words = .ok i) (hcommand : i.command = .generate args false)
    (hx : fs.root.Valid) (hok : (i.run fs).exitCode = 0)
    (hconfig : i.KeepsConfig fs (i.run fs).disk) :
    let after := (i.run fs).disk
    (∃ before rest, words = before ++ "generate" :: rest ∧
      CommandLine.parse env (before ++ "check" :: rest) = .ok i.verifying) ∧
    ∃ p place, i.plan fs = .ok p ∧ fs.canonical? p.settings.referenceDir = some place ∧
      ((i.verifying.run after).exitCode = 0 ↔ i.Repeats p fs after) ∧
      (∀ out, OwnOutput fs after p out → Walkable after.root place →
        ((i.verifying.run after).exitCode = 0 ↔
          ∀ t, IsTemplate fs.root place p.settings.excludes (skipPlaces fs p.settings.skipPaths) t →
            place ++ t.names ∉ skipPlaces after p.settings.skipPaths)) ∧
      (∀ out, OwnOutput fs after p out →
        (∀ q, after.root.entryAt q = some .dir → fs.root.entryAt q = some .dir) →
          (i.verifying.run after).exitCode = 0) := by
  intro after
  rw [Outcome.exitCode_eq_zero] at hok
  obtain ⟨p, place, out, ts, g, d⟩ := delivered_of_run hx hcommand hok
  refine ⟨CommandLine.parse_verifying hparse hcommand, p, place, d.plan, d.reference, ?_,
    fun out' hown hwalk => ?_, fun out' hown hdirs => ?_⟩
  · rw [Outcome.exitCode_eq_zero]
    exact d.passes_iff hconfig
  · cases d.out_eq hown
    rw [Outcome.exitCode_eq_zero, d.passes_iff_not_skipped hown hconfig hwalk]
    exact forall_congr' fun t => by rw [d.templates.mem]
  · cases d.out_eq hown
    rw [Outcome.exitCode_eq_zero, d.passes_iff_not_skipped hown hconfig (d.walkable_after hdirs)]
    exact d.not_mem_skipPlaces hdirs

/-! ## An output that leads to a template once it is written -/

section Late

/-- A disk with one template, and what else is in its directory. -/
def smallDisk (content : Octets) (beside : List (Name × Node)) : FileSystem :=
  ⟨.dir [(toOctets "c", .dir [(toOctets "d", .dir ((toOctets "b", .file content) :: beside))])],
    []⟩

/-- A path to the template that leads nowhere as long as the directory `n` is missing. -/
def latePath : Path := Path.ofString "c/d/n/../b"

def lateWords : List String := ["generate", "-o", "c/d/n/../b"]

def lateRun : Invocation :=
  ⟨false, false, none, .generate ⟨Path.ofString ".", some latePath, none, none, []⟩ false⟩

def latePlan : Plan :=
  ⟨⟨Path.ofString ".", false, .yaml, ⟨[]⟩,
    [latePath, Path.ofString "./metadata.yml", Path.ofString "./metadata.json"]⟩, latePath⟩

def lateTemplate : Template := ⟨[toOctets "c", toOctets "d", toOctets "b"], []⟩

/-- The disk after the run: the template is overwritten. -/
def lateDisk (content : Octets) : FileSystem := smallDisk content [(toOctets "n", .dir [])]

theorem valid_smallDisk : (smallDisk [] []).root.Valid := by
  simp only [smallDisk, Node.Valid, Node.ValidEntries, Node.ValidName]
  decide

theorem valid_lateDisk (content : Octets) : (lateDisk content).root.Valid := by
  simp only [lateDisk, smallDisk, Node.Valid, Node.ValidEntries, Node.ValidName, List.map_cons,
    List.map_nil]
  decide

theorem canonical?_late (content : Octets) :
    (lateDisk content).canonical? latePath = some lateTemplate.names := by
  rfl

theorem walkable_late (content : Octets) : Walkable (lateDisk content).root [] := by
  have hget : (lateDisk content).root.get? lateTemplate.names = some (.file content) := rfl
  have hnames := Node.validName_of_get? (valid_lateDisk content) hget
  have hdiscover : (Discovery.discover (lateDisk content) (Path.ofRoot [])
      latePlan.settings.excludes ([lateTemplate.names].map Path.ofRoot)).result = .ok [] := rfl
  exact ((Discovery.discover_eq_ok (valid_lateDisk content) rfl
    (List.forall_mem_singleton.2 hnames)).1 hdiscover).1

theorem generate_late :
    ∃ g, (generate (smallDisk [] []) latePlan.settings).result = .ok g := by
  have hplace : locate (smallDisk [] []) (Path.ofString ".") = .ok [] := rfl
  have hdiscover : (Discovery.discover (smallDisk [] []) (Path.ofRoot []) latePlan.settings.excludes
      (canonicalSkips (smallDisk [] []) latePlan.settings.skipPaths)).result =
        .ok [lateTemplate] := by decide +kernel
  have hfiled : (fileAll [] (Hierarchy.start latePlan.settings.exitOnError)
      [lateTemplate]).result.isOk = true := rfl
  exact exists_generated hplace hdiscover hfiled

theorem safeWrite_late (content : Octets) :
    (smallDisk [] []).safeWrite latePath content = (lateDisk content, none) := by
  have hparent : (smallDisk [] []).ensureParent latePath = (lateDisk [], none) := by
    have hmissing : (smallDisk [] []).holds (Path.ofString "c/d/n/..") = false := rfl
    have hmade : (smallDisk [] []).makeDirs (Path.ofString "c/d/n/..") = (lateDisk [], none) := rfl
    exact FileSystem.ensureParent_of_missing rfl rfl hmissing hmade
  have hshort : (((lateDisk []).absolute (FileSystem.temporaryDir latePath)).join
      ⟨FileSystem.temporaryName 0⟩).isTooLong = false := rfl
  have hfind : (lateDisk []).find true ((lateDisk []).absolute (FileSystem.temporaryDir latePath)) =
      .ok ([toOctets "c", toOctets "d"],
        .dir [(toOctets "b", .file []), (toOctets "n", .dir [])]) := rfl
  have hfresh : FileSystem.freshTemporary? [(toOctets "b", .file []), (toOctets "n", .dir [])] =
      some (FileSystem.temporaryName 0) := rfl
  have hmove : ((lateDisk []).editDir [toOctets "c", toOctets "d"]
      (Node.setEntry (FileSystem.temporaryName 0) (.file content))).moveFile
        [toOctets "c", toOctets "d"] (FileSystem.temporaryName 0) content latePath =
          .ok (lateDisk content) := rfl
  exact FileSystem.safeWrite_ok hparent hshort hfind hfresh hmove

/-- The run ends well and the check after it does not: the template that was found before the
directory was made is the output afterwards. -/
theorem check_fails_after_generate :
    CommandLine.parse [] lateWords = .ok lateRun ∧ (smallDisk [] []).root.Valid ∧
      (lateRun.run (smallDisk [] [])).exitCode = 0 ∧
      lateRun.KeepsConfig (smallDisk [] []) (lateRun.run (smallDisk [] [])).disk ∧
      (lateRun.verifying.run (lateRun.run (smallDisk [] [])).disk).exitCode ≠ 0 := by
  have hparse : CommandLine.parse [] lateWords = .ok lateRun := rfl
  have hplan : lateRun.plan (smallDisk [] []) = .ok latePlan := rfl
  obtain ⟨g, hgenerate⟩ := generate_late
  obtain ⟨htrouble, hdisk⟩ := (run_generate rfl).2
    ⟨latePlan, g, hplan, hgenerate, safeWrite_late (toOctets g.rendered)⟩
  have hexit := Outcome.exitCode_eq_zero.2 htrouble
  have hconfig : lateRun.KeepsConfig (smallDisk [] []) (lateRun.run (smallDisk [] [])).disk :=
    fun file text hfile => by cases hfile
  refine ⟨hparse, valid_smallDisk, hexit, hconfig, ?_⟩
  obtain ⟨-, p, place, hp, hplace, -, hiff, -⟩ :=
    check_after_generate hparse rfl valid_smallDisk hexit hconfig
  rw [hplan] at hp
  cases hp
  have hroot : (smallDisk [] []).canonical? (Path.ofString ".") = some [] := rfl
  cases Option.some.inj (hroot.symm.trans hplace)
  rw [hdisk] at hiff ⊢
  have hfile : (smallDisk [] []).root.entryAt lateTemplate.names = some (.file []) := rfl
  have hnamed := canonical?_late (toOctets g.rendered)
  have hown : OwnOutput (smallDisk [] []) (lateDisk (toOctets g.rendered)) latePlan
      lateTemplate.names := ⟨hnamed, by simp [hfile]⟩
  rw [Ne, hiff _ hown (walkable_late _)]
  intro hall
  refine hall lateTemplate ⟨hfile, ?_, rfl⟩ ?_
  · have hskips : skipPlaces (smallDisk [] []) latePlan.settings.skipPaths = [] := rfl
    rw [hskips]
    exact List.not_mem_nil
  · exact mem_skipPlaces.2 ⟨latePath, List.mem_cons_self .., hnamed⟩

end Late
end Invocation
end RefManifest
