import RefManifest.Proofs.Run
import RefManifest.Proofs.Yaml.Rendering

/-!
# RefManifest.Proofs.OutOfDate

When a check calls the manifest out of date.

* `stale_iff`: the output is missing, or it reads as another text.
* `check_reports_stale`: what this means where the way to the output breaks off at an entry that is
  not there, and where it leads to a file.

A file is compared as a text. So a file of octets that are not well formed is never called out of
date, for the check cannot read it (`ill_formed_manifest_not_stale`). Nor is the text of another
manifest, if it is the same text in YAML (`unterminated_path_not_stale`); `yaml_told_apart` says
which manifests these are.
-/

namespace RefManifest

open Text Disk Generation

namespace FileSystem

variable {fs : FileSystem} {p : Path}

theorem readText_eq_missing :
    fs.readText p = .error .missing ↔ fs.find true p = .error .missing := by
  unfold readText read
  cases fs.find true p with
  | error f => simp
  | ok found =>
    obtain ⟨place, x⟩ := found
    cases x with
    | link t => simp
    | dir es => simp
    | file c => cases hdecode : Utf8.decode? c <;> simp [hdecode]

theorem find_eq_missing_of_read {c : Octets} (h : fs.read p = .ok c) :
    fs.find true p ≠ .error .missing := by
  intro hfind
  rw [read, hfind] at h
  cases h

/-- Where the way breaks off at an entry that is not there, nothing is found, and it is said to be
missing if the system takes the path and the name. -/
theorem find_of_absent {front rest : List Step} {place : List Name} {n : Name}
    (hsteps : stepsOf p = front ++ .name n :: rest)
    (hleads : Leads fs.root true anyPlace maxLinks (fs.startOf p) front place)
    (hdir : fs.root.entryAt place = some .dir) (habsent : fs.root.entryAt (place ++ [n]) = none) :
    ∃ f, fs.find true p = .error f ∧
      (f = .missing ↔ admissible p = .ok () ∧ n.length ≤ maxNameLength) := by
  obtain ⟨left, hleft⟩ := hleads.resolveFrom_append true
  have hresolve := hleft (.name n :: rest) (by simp)
  rw [← hsteps] at hresolve
  cases hadm : admissible p with
  | error f =>
    refine ⟨f, by rw [find, locate, hadm], ?_⟩
    have hname : Step.name n ∈ stepsOf p := by simp [hsteps]
    have hf := admissible_ne_missing (isEmpty_of_mem_stepsOf hname) hadm
    simp [hf]
  | ok u =>
    by_cases hlen : n.length ≤ maxNameLength
    · rw [resolveFrom_missing hdir hlen rfl habsent] at hresolve
      exact ⟨.missing, by rw [find, locate, hadm, hresolve], by simp [hlen]⟩
    · rw [resolveFrom_long hdir (by omega)] at hresolve
      exact ⟨.nameTooLong, by rw [find, locate, hadm, hresolve], by simp [hlen]⟩

end FileSystem

namespace Invocation

variable {i : Invocation} {fs : FileSystem} {args : ReferenceArgs} {p : Plan} {g : Generated}

/-- The error of a check that finds its manifest out of date. -/
def staleTrouble (p : Plan) : Trouble := .failure [] (.outputOutOfDate p.output.display)

/-- A check that has generated its manifest calls the output out of date exactly if the output is
missing or reads as another text. -/
theorem stale_iff (hcommand : i.command = .check args) (hgen : i.generated fs = .ok (p, g)) :
    (i.run fs).trouble = some (staleTrouble p) ↔
      fs.find true p.output = .error .missing ∨
        ∃ text, fs.read p.output = .ok (toOctets text) ∧ text ≠ g.rendered := by
  obtain ⟨ns, hrun⟩ := run_eq i fs
  rw [hrun, hcommand, hgen, ← FileSystem.readText_eq_missing]
  simp only [← FileSystem.readText_eq_ok, Command.conclude, Run.compare, staleTrouble]
  cases hread : fs.readText p.output with
  | error f => cases f <;> simp [Outcome.failed]
  | ok text => by_cases htext : text = g.rendered <;> simp [Outcome.failed, htext]

/-- A check on an output that is not there, or that is another file. Let the manifest be generated.
If the way to the output breaks off at an entry that is not there, the check calls the output out of
date exactly if the system takes its path. If the output is a file of other octets than those of the
manifest, the check calls it out of date exactly if these octets are well-formed text. -/
theorem check_reports_stale (hcommand : i.command = .check args)
    (hgen : i.generated fs = .ok (p, g)) :
    (∀ front n rest place, stepsOf p.output = front ++ .name n :: rest →
      Leads fs.root true anyPlace maxLinks (fs.startOf p.output) front place →
      fs.root.entryAt place = some .dir → fs.root.entryAt (place ++ [n]) = none →
        ((i.run fs).trouble = some (staleTrouble p) ↔
          admissible p.output = .ok () ∧ n.length ≤ maxNameLength)) ∧
    (fs.find true p.output = .error .missing → (i.run fs).trouble = some (staleTrouble p)) ∧
    (∀ c, fs.read p.output = .ok c → c ≠ toOctets g.rendered →
      ((i.run fs).trouble = some (staleTrouble p) ↔ ∃ text, Utf8.decode? c = some text)) := by
  rw [stale_iff hcommand hgen]
  refine ⟨fun front n rest place hsteps hleads hdir habsent => ?_, .inl, fun c hread hne => ?_⟩
  · obtain ⟨f, hfind, hmissing⟩ := FileSystem.find_of_absent hsteps hleads hdir habsent
    rw [← hmissing, hfind, Except.error.injEq]
    refine or_iff_left ?_
    rintro ⟨text, hread, -⟩
    rw [FileSystem.read, hfind] at hread
    cases hread
  · rw [or_iff_right (FileSystem.find_eq_missing_of_read hread), hread]
    constructor
    · rintro ⟨text, hc, -⟩
      cases hc
      exact ⟨text.toList, Utf8.decode?_encode _⟩
    · rintro ⟨text, htext⟩
      have hc : c = toOctets (String.ofList text) := by
        rw [Utf8.decode?_eq_some.1 htext, toOctets, String.toList_ofList]
      exact ⟨_, by rw [hc], fun heq => hne (by rw [hc, heq])⟩

section IllFormed

def checkRun : Invocation :=
  ⟨false, false, none, .check ⟨Path.ofString ".", none, none, none, []⟩⟩

def checkPlan : Plan :=
  ⟨⟨Path.ofString ".", false, .yaml, ⟨[]⟩,
    [Path.ofString "./metadata.yml", Path.ofString "./metadata.yml",
      Path.ofString "./metadata.json"]⟩, Path.ofString "./metadata.yml"⟩

/-- The disk with a manifest of one octet that starts no character. -/
def illFormedDisk : FileSystem := dnsDisk [(toOctets "metadata.yml", .file [0xFF])]

/-- The manifest is there and is not what is generated, and the check does not call it out of date.
It does so once the manifest is removed. -/
theorem ill_formed_manifest_not_stale :
    (∃ g, checkRun.generated illFormedDisk = .ok (checkPlan, g) ∧
      illFormedDisk.read checkPlan.output = .ok [0xFF] ∧ [0xFF] ≠ toOctets g.rendered) ∧
    (checkRun.run illFormedDisk).trouble ≠ some (staleTrouble checkPlan) ∧
    (checkRun.run (dnsDisk [])).trouble = some (staleTrouble checkPlan) := by
  obtain ⟨g, hgen⟩ : ∃ g, checkRun.generated illFormedDisk = .ok (checkPlan, g) :=
    exists_generated_dns rfl rfl rfl
  obtain ⟨g', hgen'⟩ : ∃ g, checkRun.generated (dnsDisk []) = .ok (checkPlan, g) :=
    exists_generated_dns rfl rfl (by decide +kernel)
  have hread : illFormedDisk.read checkPlan.output = .ok [0xFF] := rfl
  have hdecode : Utf8.decode? [0xFF] = none := by decide
  have hne : [0xFF] ≠ toOctets g.rendered := by
    intro heq
    rw [heq, toOctets, Utf8.decode?_encode] at hdecode
    cases hdecode
  have hmissing : (dnsDisk []).find true checkPlan.output = .error .missing := rfl
  obtain ⟨-, -, hfile⟩ := check_reports_stale rfl hgen
  obtain ⟨-, hstale, -⟩ := check_reports_stale rfl hgen'
  refine ⟨⟨g, hgen, hread, hne⟩, ?_, hstale hmissing⟩
  rw [Ne, hfile _ hread hne, hdecode]
  simp

end IllFormed

/-! ## Another manifest with the same text -/

section SameText

/-- Two manifests have the same text in YAML exactly if they are equal, or if one of them goes on
where the last path of the other one is unterminated. A check in YAML of what generates the one
finds the text of the other one up to date exactly in these cases. -/
theorem yaml_told_apart (m m' : Manifest) :
    (m.render .yaml = m'.render .yaml ↔ m = m' ∨ m.Continues m' ∨ m'.Continues m) ∧
    ∀ {i : Invocation} {fs : FileSystem} {args : ReferenceArgs} {p : Plan} {g : Generated},
      i.command = .check args → i.generated fs = .ok (p, g) → p.settings.format = .yaml →
      g.manifest = m' → fs.readText p.output = .ok (m.render .yaml) →
      ((i.run fs).trouble = none ↔ m = m' ∨ m.Continues m' ∨ m'.Continues m) := by
  have htext : m.render .yaml = m'.render .yaml ↔ m = m' ∨ m.Continues m' ∨ m'.Continues m := by
    rw [Manifest.render, Manifest.render, String.ofList_inj]
    exact Manifest.rendered_yaml_eq_iff
  refine ⟨htext, fun {i fs args p g} hcommand hgen hyaml hmanifest hread => ?_⟩
  have hrendered := generate_rendered (generated_eq_ok.1 hgen).2
  rw [hyaml, hmanifest] at hrendered
  rw [← htext, ← hrendered, run_check hcommand]
  simp only [← and_assoc, ← generated_eq_ok, hgen]
  constructor
  · rintro ⟨p', g', hsame, hfound⟩
    cases hsame
    rw [hread] at hfound
    exact Except.ok.inj hfound
  · intro heq
    exact ⟨p, g, rfl, hread.trans (congrArg _ heq)⟩

/-- The manifest of one template with that file name. -/
def namedManifest (name : String) : Manifest :=
  ⟨"v1", [⟨"core", [⟨"dns", .required, ["core/dns/" ++ name], []⟩]⟩]⟩

/-- The disk with that template, and with that manifest. -/
def namedDisk (name : String) (content : Octets) : FileSystem :=
  ⟨.dir [(toOctets "core", .dir [(toOctets "dns", .dir [(toOctets name, .file [])])]),
    (toOctets "metadata.yml", .file content)], []⟩

theorem generated_named (content : Octets) :
    ∃ g, checkRun.generated (namedDisk "x\n\u2028\n" content) = .ok (checkPlan, g) ∧
      g.manifest = namedManifest "x\n\u2028\n" := by
  have hplan : checkRun.plan (namedDisk "x\n\u2028\n" content) = .ok checkPlan := rfl
  have hfiled : (fileAll [] (Hierarchy.start false)
      [⟨[toOctets "core", toOctets "dns", toOctets "x\n\u2028\n"], []⟩]).result.map (·.finish) =
        .ok (namedManifest "x\n\u2028\n") := rfl
  cases hh : (fileAll [] (Hierarchy.start false)
      [⟨[toOctets "core", toOctets "dns", toOctets "x\n\u2028\n"], []⟩]).result with
  | error f =>
    rw [hh] at hfiled
    cases hfiled
  | ok h =>
    rw [hh] at hfiled
    obtain ⟨g, hgenerate, hmanifest⟩ :=
      @exists_generated_of_filed (namedDisk "x\n\u2028\n" content) checkPlan.settings [] _ h
        rfl rfl hh
    exact ⟨g, generated_eq_ok.2 ⟨hplan, hgenerate⟩, hmanifest.trans (Except.ok.inj hfiled)⟩

/-- The name ends with a line separator, and the other one has a line feed behind it. The check
finds the manifest of the one template up to date for the other one. -/
theorem unterminated_path_not_stale :
    let m := namedManifest "x\n\u2028"
    let m' := namedManifest "x\n\u2028\n"
    let fs := namedDisk "x\n\u2028\n" (toOctets (m.render .yaml))
    m ≠ m' ∧ m.render .yaml = m'.render .yaml ∧
      (∃ g, checkRun.generated fs = .ok (checkPlan, g) ∧ g.manifest = m') ∧
      (checkRun.run fs).trouble = none := by
  intro m m' fs
  have hcontinues : m.Continues m' :=
    ⟨"core/dns/x\n\u2028", rfl, ⟨by decide, by decide, by decide, by decide⟩, rfl⟩
  have hread : ∀ content : Octets,
      (namedDisk "x\n\u2028\n" content).read checkPlan.output = .ok content := by
    intro content
    rfl
  have htext : fs.readText checkPlan.output = .ok (m.render .yaml) :=
    FileSystem.readText_eq_ok.2 (hread _)
  obtain ⟨g, hgen, hmanifest⟩ := generated_named (toOctets (m.render .yaml))
  obtain ⟨hsame, hchecked⟩ := yaml_told_apart m m'
  refine ⟨by decide, hsame.2 (.inr (.inl hcontinues)), ⟨g, hgen, hmanifest⟩, ?_⟩
  exact (hchecked rfl hgen rfl hmanifest htext).2 (.inr (.inl hcontinues))

end SameText

end Invocation
end RefManifest
