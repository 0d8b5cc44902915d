import RefManifest.Proofs.Commands
import RefManifest.Proofs.DefaultOutput
import RefManifest.Proofs.Effects

/-!
# RefManifest.Proofs.Rerun

Runs of `generate` one after the other, with their outputs at the default places.

Each run walks the directory that the run before it has written to. A run fails and changes nothing,
or it puts its manifest under the default name of its format (`run_cases`). So after any number of
runs the disk is the first one but for files under the default names (`refreshed_afterRuns`), and a
generation that succeeds there has seen none of them.

* `reruns_agree`: all runs that get a manifest get the one of the first disk, and when a check at
  the end ends well.
-/

namespace RefManifest

open Text Disk Generation

namespace FileSystem

variable {fs after : FileSystem} {dir : Path} {place : List Name} {f : Format} {c : Octets}

/-- The disk after the runs, each on what the one before it has left. -/
def afterRuns (fs : FileSystem) (js : List Invocation) : FileSystem :=
  js.foldl (fun d j => (j.run d).disk) fs

theorem afterRuns_cons (fs : FileSystem) (j : Invocation) (js : List Invocation) :
    fs.afterRuns (j :: js) = (j.run fs).disk.afterRuns js := rfl

theorem afterRuns_append (fs : FileSystem) (before rest : List Invocation) :
    fs.afterRuns (before ++ rest) = (fs.afterRuns before).afterRuns rest :=
  List.foldl_append ..

/-- A manifest that is put at its default place changes nothing else. -/
theorem Put.refreshed (h : fs.Put fs after (defaultOutput dir f) place f.entryName c)
    (hhome : Home fs dir place) : Refreshed place fs after where
  here := h.here
  valid := h.wrote.valid
  kept := h.placed.alike (hhome.noLink f)
  fresh := by
    intro q e hq
    rw [h.entryAt] at hq
    split at hq
    · rename_i heq
      cases hq
      exact .inr ⟨f, c, heq, rfl⟩
    · exact .inl hq

end FileSystem

theorem Format.entryName_injective {f f' : Format} (h : f.entryName = f'.entryName) : f = f' := by
  revert h
  cases f <;> cases f' <;> decide

namespace Invocation

variable {j : Invocation} {js : List Invocation} {fs : FileSystem} {dir : Path}
  {place : List Name} {patterns : List String} {strict : Bool} {excludes : Excludes}
  {f : Format} {p : Plan} {g : Generated}

/-- The format of a run without a configuration file. -/
def ownFormat (j : Invocation) : Format := j.command.args.chosenFormat {}

/-- The run has no configuration file and writes its manifest to the default place in `dir`. -/
structure Regenerates (j : Invocation) (dir : Path) (patterns : List String) (strict : Bool) :
    Prop where
  config : j.config = none
  command : ∃ args, j.command = .generate args false
  reference : j.command.args.referenceDir = dir
  output : j.command.args.output = none
  excludes : j.command.args.excludes = patterns
  strict : j.command.args.chosenExitOnError {} = strict

def homePlan (dir : Path) (excludes : Excludes) (strict : Bool) (f : Format) : Plan :=
  ⟨⟨dir, strict, f, excludes,
    [defaultOutput dir f, defaultOutput dir .yaml, defaultOutput dir .json]⟩, defaultOutput dir f⟩

theorem atHome_homePlan (dir : Path) (excludes : Excludes) (strict : Bool) (f : Format) :
    AtHome (homePlan dir excludes strict f).settings dir where
  reference := rfl
  skips := by
    intro p
    simp only [homePlan, List.mem_cons, List.not_mem_nil, or_false]
    constructor
    · rintro (rfl | rfl | rfl)
      · exact ⟨_, rfl⟩
      · exact ⟨_, rfl⟩
      · exact ⟨_, rfl⟩
    · rintro ⟨f', rfl⟩
      cases f' <;> simp

namespace Regenerates

theorem plan_eq_ok (h : j.Regenerates dir patterns strict) :
    j.plan fs = .ok p ↔ ∃ excludes, Excludes.ofPatterns patterns = .ok excludes ∧
      p = homePlan dir excludes strict j.ownFormat := by
  rw [Invocation.plan, h.config]
  simp only [ReferenceArgs.resolve]
  have hpatterns : j.command.args.allPatterns {} = patterns := h.excludes
  rw [hpatterns]
  cases Excludes.ofPatterns patterns with
  | error f => simp
  | ok excludes =>
    have houtput : j.command.args.chosenOutput {} = defaultOutput dir j.ownFormat := by
      rw [ReferenceArgs.chosenOutput, h.output, h.reference]
      rfl
    simp only [houtput, h.reference, h.strict, Except.ok.injEq, Option.toList_none,
      List.append_nil, exists_eq_left', homePlan, ownFormat]
    exact eq_comm

theorem generated_eq_ok (h : j.Regenerates dir patterns strict) :
    j.generated fs = .ok (p, g) ↔ ∃ excludes, Excludes.ofPatterns patterns = .ok excludes ∧
      p = homePlan dir excludes strict j.ownFormat ∧ (generate fs p.settings).result = .ok g := by
  rw [Invocation.generated_eq_ok, h.plan_eq_ok]
  constructor
  · rintro ⟨⟨excludes, hexcludes, hp⟩, hgenerate⟩
    exact ⟨excludes, hexcludes, hp, hgenerate⟩
  · rintro ⟨excludes, hexcludes, hp, hgenerate⟩
    exact ⟨⟨excludes, hexcludes, hp⟩, hgenerate⟩

/-- A run fails and changes nothing, or it puts its manifest at its default place. -/
theorem run_cases (h : j.Regenerates dir patterns strict) (hhome : Home fs dir place) :
    ((j.run fs).trouble ≠ none ∧ (j.run fs).disk = fs) ∨
      ∃ excludes g, Excludes.ofPatterns patterns = .ok excludes ∧
        (generate fs (homePlan dir excludes strict j.ownFormat).settings).result = .ok g ∧
        fs.Put fs (j.run fs).disk (defaultOutput dir j.ownFormat) place j.ownFormat.entryName
          (toOctets g.rendered) := by
  obtain ⟨args, hcommand⟩ := h.command
  have hmade : (fs.ensureParent (defaultOutput dir j.ownFormat)).1 = fs :=
    FileSystem.ensureParent_join hhome.reference hhome.isDir (Format.validName_entryName _)
  by_cases hfail : (j.run fs).trouble = none
  · obtain ⟨p, g, hplan, hgenerate, hwrite⟩ := (run_generate hcommand).1 ⟨hfail, rfl⟩
    obtain ⟨excludes, hexcludes, rfl⟩ := h.plan_eq_ok.1 hplan
    obtain ⟨place', n, hput⟩ := FileSystem.safeWrite_eq_ok hwrite
    have houtput : (homePlan dir excludes strict j.ownFormat).output =
        defaultOutput dir j.ownFormat := rfl
    rw [houtput, hmade] at hput
    obtain ⟨rfl, rfl⟩ := FileSystem.NamesEntry.eq_of_join hhome.reference hhome.isDir
      (Format.validName_entryName _) hput.names
    exact .inr ⟨excludes, g, hexcludes, hgenerate, hput⟩
  · refine .inl ⟨hfail, ?_⟩
    rcases disk_of_failed hcommand hfail with hdisk | ⟨p, hplan, hdisk⟩
    · exact hdisk
    · obtain ⟨excludes, -, rfl⟩ := h.plan_eq_ok.1 hplan
      exact hdisk.trans hmade

theorem refreshed (h : j.Regenerates dir patterns strict) (hhome : Home fs dir place) :
    Refreshed place fs (j.run fs).disk := by
  rcases h.run_cases hhome with ⟨-, hdisk⟩ | ⟨excludes, g, -, -, hput⟩
  · rw [hdisk]
    exact .refl place fs
  · exact hput.refreshed hhome

theorem entryAt_of_ne (h : j.Regenerates dir patterns strict) (hhome : Home fs dir place)
    (hne : j.ownFormat ≠ f) :
    (j.run fs).disk.root.entryAt (place ++ [f.entryName]) =
      fs.root.entryAt (place ++ [f.entryName]) := by
  rcases h.run_cases hhome with ⟨-, hdisk⟩ | ⟨excludes, g, -, -, hput⟩
  · rw [hdisk]
  · refine hput.frame fun heq => hne ?_
    have hname := List.append_cancel_left heq
    exact (Format.entryName_injective (List.singleton_inj.1 hname)).symm

end Regenerates

/-! ## Any number of runs -/

theorem refreshed_afterRuns (hhome : Home fs dir place)
    (hjs : ∀ j ∈ js, j.Regenerates dir patterns strict) :
    Refreshed place fs (fs.afterRuns js) := by
  induction js generalizing fs with
  | nil => exact .refl place fs
  | cons j js ih =>
    obtain ⟨hj, hjs⟩ := List.forall_mem_cons.1 hjs
    have hstep := hj.refreshed hhome
    rw [FileSystem.afterRuns_cons]
    exact hstep.trans (ih (hstep.home hhome) hjs)

theorem entryAt_afterRuns (hhome : Home fs dir place)
    (hjs : ∀ j ∈ js, j.Regenerates dir patterns strict) (hne : ∀ j ∈ js, j.ownFormat ≠ f) :
    (fs.afterRuns js).root.entryAt (place ++ [f.entryName]) =
      fs.root.entryAt (place ++ [f.entryName]) := by
  induction js generalizing fs with
  | nil => rfl
  | cons j js ih =>
    obtain ⟨hj, hjs⟩ := List.forall_mem_cons.1 hjs
    obtain ⟨hnej, hne⟩ := List.forall_mem_cons.1 hne
    rw [FileSystem.afterRuns_cons, ih ((hj.refreshed hhome).home hhome) hjs hne,
      hj.entryAt_of_ne hhome hnej]

theorem afterRuns_of_lost (hx : fs.root.Valid)
    (hlost : ∀ place, fs.canonical? dir = some place → fs.root.entryAt place ≠ some .dir)
    (hjs : ∀ j ∈ js, j.Regenerates dir patterns strict) :
    fs.afterRuns js = fs ∧ ∀ j ∈ js, ∀ p g, j.generated fs ≠ .ok (p, g) := by
  have hnone : ∀ j : Invocation, j.Regenerates dir patterns strict →
      ∀ p g, j.generated fs ≠ .ok (p, g) := by
    intro j hj p g hgen
    obtain ⟨excludes, -, rfl, hgenerate⟩ := hj.generated_eq_ok.1 hgen
    obtain ⟨place, -, hplace, hdir, -⟩ := (generate_eq_ok hx).1 hgenerate
    exact hlost place hplace hdir
  refine ⟨?_, fun j hj => hnone j (hjs j hj)⟩
  induction js with
  | nil => rfl
  | cons j js ih =>
    obtain ⟨hj, hjs⟩ := List.forall_mem_cons.1 hjs
    rw [FileSystem.afterRuns_cons]
    cases hgen : j.generated fs with
    | error f => rw [(run_of_generated_error hgen).2, ih hjs]
    | ok found => exact absurd hgen (hnone j hj found.1 found.2)

/-- What is generated after the runs is what would be generated before them, in any format, and
lists no manifest. -/
theorem generated_afterRuns (hhome : Home fs dir place)
    (hjs : ∀ j ∈ js, j.Regenerates dir patterns strict) (hj : j.Regenerates dir patterns strict)
    (hgen : j.generated (fs.afterRuns js) = .ok (p, g)) :
    (∀ first : Invocation, first.Regenerates dir patterns strict →
      ∃ p₀ g₀, first.generated fs = .ok (p₀, g₀) ∧ g₀.manifest = g.manifest) ∧
    ∀ f : Format, f.fileName ∉ g.manifest.templatePaths := by
  obtain ⟨excludes, hexcludes, rfl, hgenerate⟩ := hj.generated_eq_ok.1 hgen
  have hrefreshed := refreshed_afterRuns hhome hjs
  have hhome' := hrefreshed.home hhome
  have hs := atHome_homePlan dir excludes strict
  have hunseen := hhome'.unseen_of_generate (hs _) hgenerate
  have hbefore := (hrefreshed.generate_iff hhome (hs _) hunseen).1 hgenerate
  refine ⟨fun first hfirst => ?_, hhome'.not_listed (hs _) hgenerate⟩
  have hreformat := hhome.generate_reformat (hs j.ownFormat) (hs first.ownFormat) rfl rfl hbefore
  exact ⟨_, _, hfirst.generated_eq_ok.2 ⟨excludes, hexcludes, rfl, hreformat⟩, rfl⟩

/-- The check after the last run of its format. It ends well exactly if no manifest is in sight. -/
theorem verifying_afterRuns {rest : List Invocation} (hhome : Home fs dir place)
    (hj : j.Regenerates dir patterns strict) (hok : (j.run fs).trouble = none)
    (hrest : ∀ k ∈ rest, k.Regenerates dir patterns strict)
    (hlast : ∀ k ∈ rest, k.ownFormat ≠ j.ownFormat) :
    ∃ excludes, Excludes.ofPatterns patterns = .ok excludes ∧
      ((j.verifying.run ((j.run fs).disk.afterRuns rest)).trouble = none ↔
        Unseen ((j.run fs).disk.afterRuns rest) place excludes) := by
  rcases hj.run_cases hhome with ⟨hfail, -⟩ | ⟨excludes, g, hexcludes, hgenerate, hput⟩
  · exact absurd hok hfail
  have hs := atHome_homePlan dir excludes strict j.ownFormat
  have hhome' := (hj.refreshed hhome).home hhome
  have hrefreshed := (hj.refreshed hhome).trans (refreshed_afterRuns hhome' hrest)
  have hfile := entryAt_afterRuns hhome' hrest hlast
  rw [hput.now] at hfile
  generalize (j.run fs).disk.afterRuns rest = final at hrefreshed hfile
  have hhome'' := hrefreshed.home hhome
  refine ⟨excludes, hexcludes, ?_⟩
  constructor
  · intro hcheck
    obtain ⟨p, g', hplan, hgenerate', -⟩ := (run_check (i := j.verifying) rfl).1 hcheck
    obtain ⟨excludes', hexcludes', rfl⟩ := hj.plan_eq_ok.1 hplan
    cases hexcludes.symm.trans hexcludes'
    exact hhome''.unseen_of_generate hs hgenerate'
  · intro hunseen
    have hgenerate' := (hrefreshed.generate_iff hhome hs hunseen).2 hgenerate
    have hgen := hj.generated_eq_ok.2 ⟨excludes, hexcludes, rfl, hgenerate'⟩
    refine (verifying_of_generated hgen).2 (FileSystem.read_eq_ok.2 ⟨_, ?_, hfile⟩)
    refine FileSystem.locate_eq_ok.2 ⟨hput.names.admissible, ?_⟩
    exact FileSystem.leadsTo_join hhome''.reference hhome''.isDir (Format.validName_entryName _)
      (Format.length_entryName _) hfile (by simp)

/-- Runs that write to the default places of one reference directory, with the same excludes and the
same mode, where no link has a default name. All runs that get a manifest get the one that the first
of them would, in whatever formats they are, and it lists none of the manifests. If the last run of
a format ends well, the check in that format after all runs ends well exactly if each manifest that
is there then is excluded or has an absolute path that the system takes. -/
theorem reruns_agree (hx : fs.root.Valid)
    (hlink : ∀ place, fs.canonical? dir = some place → ∀ (f : Format) target,
      fs.root.entryAt (place ++ [f.entryName]) ≠ some (.link target))
    (hjs : ∀ j ∈ js, j.Regenerates dir patterns strict) :
    (∀ before j rest, js = before ++ j :: rest →
      ∀ p g, j.generated (fs.afterRuns before) = .ok (p, g) →
        (∀ first : Invocation, first.Regenerates dir patterns strict →
          ∃ p₀ g₀, first.generated fs = .ok (p₀, g₀) ∧ g₀.manifest = g.manifest) ∧
        ∀ f : Format, f.fileName ∉ g.manifest.templatePaths) ∧
    (∀ before j rest, js = before ++ j :: rest →
      (j.run (fs.afterRuns before)).exitCode = 0 → (∀ k ∈ rest, k.ownFormat ≠ j.ownFormat) →
        ∃ place excludes, fs.canonical? dir = some place ∧
          Excludes.ofPatterns patterns = .ok excludes ∧
          ((j.verifying.run (fs.afterRuns js)).exitCode = 0 ↔
            Unseen (fs.afterRuns js) place excludes)) := by
  have hparts : ∀ {before j rest}, js = before ++ j :: rest →
      (∀ k ∈ before, k.Regenerates dir patterns strict) ∧ j.Regenerates dir patterns strict ∧
        ∀ k ∈ rest, k.Regenerates dir patterns strict := by
    rintro before j rest rfl
    obtain ⟨hbefore, hrest⟩ := List.forall_mem_append.1 hjs
    exact ⟨hbefore, List.forall_mem_cons.1 hrest⟩
  by_cases hfound : ∃ place, fs.canonical? dir = some place ∧ fs.root.entryAt place = some .dir
  · obtain ⟨place, hplace, hdir⟩ := hfound
    have hhome : Home fs dir place := ⟨hx, hplace, hdir, hlink place hplace⟩
    refine ⟨fun before j rest hsplit p g hgen => ?_, fun before j rest hsplit hexit hlast => ?_⟩
    · obtain ⟨hbefore, hj, -⟩ := hparts hsplit
      exact generated_afterRuns hhome hbefore hj hgen
    · obtain ⟨hbefore, hj, hrest⟩ := hparts hsplit
      have hhome' := (refreshed_afterRuns hhome hbefore).home hhome
      obtain ⟨excludes, hexcludes, hiff⟩ := verifying_afterRuns hhome' hj
        (Outcome.exitCode_eq_zero.1 hexit) hrest hlast
      refine ⟨place, excludes, hplace, hexcludes, ?_⟩
      rw [hsplit, FileSystem.afterRuns_append, FileSystem.afterRuns_cons, Outcome.exitCode_eq_zero]
      exact hiff
  · have hlost : ∀ place, fs.canonical? dir = some place → fs.root.entryAt place ≠ some .dir :=
      fun place hplace hdir => hfound ⟨place, hplace, hdir⟩
    have hnone : ∀ before j rest, js = before ++ j :: rest → ∀ p g,
        j.generated (fs.afterRuns before) ≠ .ok (p, g) := by
      intro before j rest hsplit
      obtain ⟨hbefore, hj, -⟩ := hparts hsplit
      rw [(afterRuns_of_lost hx hlost hbefore).1]
      exact (afterRuns_of_lost hx hlost (List.forall_mem_singleton.2 hj)).2 j
        (List.mem_singleton_self j)
    refine ⟨fun before j rest hsplit p g hgen => absurd hgen (hnone before j rest hsplit p g),
      fun before j rest hsplit hexit _ => ?_⟩
    obtain ⟨args, hcommand⟩ := (hparts hsplit).2.1.command
    obtain ⟨p, g, hplan, hgenerate, -⟩ :=
      (run_generate hcommand).1 ⟨Outcome.exitCode_eq_zero.1 hexit, rfl⟩
    exact absurd (Invocation.generated_eq_ok.2 ⟨hplan, hgenerate⟩) (hnone before j rest hsplit p g)

section BothFormats

def runIn (f : Format) : Invocation :=
  ⟨false, false, none, .generate ⟨Path.ofString ".", none, none, some f, []⟩ false⟩

def manifestEntry (f : Format) (content : Octets) : Name × Node := (f.entryName, .file content)

theorem regenerates_runIn (f : Format) : (runIn f).Regenerates (Path.ofString ".") [] false :=
  ⟨rfl, ⟨_, rfl⟩, rfl, rfl, rfl, rfl⟩

theorem run_dns (f : Format) (beside : List (Name × Node)) (left : Octets → FileSystem)
    (hplace : locate (dnsDisk beside) (Path.ofString ".") = .ok [])
    (hdiscover : (Discovery.discover (dnsDisk beside) (Path.ofRoot []) ⟨[]⟩
      (canonicalSkips (dnsDisk beside)
        (homePlan (Path.ofString ".") ⟨[]⟩ false f).settings.skipPaths)).result = .ok [dnsTemplate])
    (hwrite : ∀ content, (dnsDisk beside).safeWrite (defaultOutput (Path.ofString ".") f) content =
      (left content, none)) :
    ∃ content, ((runIn f).run (dnsDisk beside)).trouble = none ∧
      ((runIn f).run (dnsDisk beside)).disk = left content := by
  have hplan : (runIn f).plan (dnsDisk beside) =
      .ok (homePlan (Path.ofString ".") ⟨[]⟩ false f) :=
    (regenerates_runIn f).plan_eq_ok.2 ⟨⟨[]⟩, rfl, rfl⟩
  obtain ⟨g, hgen⟩ := exists_generated_dns hplan hplace hdiscover
  obtain ⟨hplan, hgenerate⟩ := generated_eq_ok.1 hgen
  exact ⟨_, (run_generate rfl).2 ⟨_, g, hplan, hgenerate, hwrite _⟩⟩

/-- A run in each format ends well on the small disk, and so do the checks after both. -/
theorem reruns_agree_dns :
    (∀ f, (runIn f).Regenerates (Path.ofString ".") [] false) ∧
    ((runIn .yaml).run (dnsDisk [])).exitCode = 0 ∧
    ((runIn .json).run ((dnsDisk []).afterRuns [runIn .yaml])).exitCode = 0 ∧
    ∀ f, ((runIn f).verifying.run
      ((dnsDisk []).afterRuns [runIn .yaml, runIn .json])).exitCode = 0 := by
  have hvalid : (dnsDisk []).root.Valid := by
    simp only [dnsDisk, Node.Valid, Node.ValidEntries, Node.ValidName]
    decide
  have hplace : (dnsDisk []).canonical? (Path.ofString ".") = some [] := rfl
  have hlink : ∀ place, (dnsDisk []).canonical? (Path.ofString ".") = some place →
      ∀ (f : Format) target,
        (dnsDisk []).root.entryAt (place ++ [f.entryName]) ≠ some (.link target) := by
    intro place h f target
    cases Option.some.inj (hplace.symm.trans h)
    have hnone : (dnsDisk []).root.entryAt ([] ++ [f.entryName]) = none := by cases f <;> rfl
    rw [hnone]
    exact (Option.some_ne_none _).symm
  have hjs : ∀ j ∈ [runIn .yaml, runIn .json], j.Regenerates (Path.ofString ".") [] false := by
    intro j hj
    rcases List.mem_pair.1 hj with rfl | rfl
    · exact regenerates_runIn .yaml
    · exact regenerates_runIn .json
  obtain ⟨yaml, hyaml, hdisk⟩ := run_dns .yaml []
    (fun content => dnsDisk [manifestEntry .yaml content]) rfl (by decide +kernel)
    fun content => safeWrite_dns rfl rfl rfl rfl rfl
  obtain ⟨json, hjson, -⟩ := run_dns .json [manifestEntry .yaml yaml]
    (fun content => dnsDisk [manifestEntry .yaml yaml, manifestEntry .json content])
    rfl rfl fun content => safeWrite_dns rfl rfl rfl rfl rfl
  have hafter : (dnsDisk []).afterRuns [runIn .yaml] = dnsDisk [manifestEntry .yaml yaml] := hdisk
  rw [← hafter] at hjson
  obtain ⟨-, hchecks⟩ := reruns_agree hvalid hlink hjs
  have hyaml := Outcome.exitCode_eq_zero.2 hyaml
  have hjson := Outcome.exitCode_eq_zero.2 hjson
  refine ⟨regenerates_runIn, hyaml, hjson, fun f => ?_⟩
  have hunseen : ∀ place excludes, (dnsDisk []).canonical? (Path.ofString ".") = some place →
      Unseen ((dnsDisk []).afterRuns [runIn .yaml, runIn .json]) place excludes := by
    intro place excludes h f c _
    cases Option.some.inj (hplace.symm.trans h)
    exact .inl (by cases f <;> rfl)
  cases f with
  | yaml =>
    obtain ⟨place, excludes, hp, -, hiff⟩ := hchecks [] (runIn .yaml) [runIn .json] rfl hyaml
      (List.forall_mem_singleton.2 (by decide))
    exact hiff.2 (hunseen place excludes hp)
  | json =>
    obtain ⟨place, excludes, hp, -, hiff⟩ := hchecks [runIn .yaml] (runIn .json) [] rfl hjson
      (List.forall_mem_nil _)
    exact hiff.2 (hunseen place excludes hp)

end BothFormats
end Invocation
end RefManifest
