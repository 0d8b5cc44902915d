import RefManifest.Proofs.Disk.Write
import RefManifest.Proofs.Generation
import RefManifest.Proofs.Text.Utf8
import RefManifest.Run

/-!
# RefManifest.Proofs.Run

A run of either command, as one statement about the disk.

* `plan_congr`: what an invocation is about to do depends on the disk through the text of the
  configuration file only.
* `run_eq`: a run is the conclusion that its command draws from the plan and the manifest.
* `run_generate`: a run of `generate` succeeds exactly if the manifest is generated and written.
* `run_check`: a run of `check` succeeds exactly if the output reads as the text that is generated.
-/

namespace RefManifest

open Text Disk Generation

namespace FileSystem

variable {fs : FileSystem} {p : Path}

theorem readText_eq_ok {text : String} :
    fs.readText p = .ok text ↔ fs.read p = .ok (toOctets text) := by
  unfold readText toOctets
  cases fs.read p with
  | error f => simp
  | ok c =>
    have hdecode : ∀ s, Utf8.decode? c = some s ↔ c = Utf8.encode s :=
      fun s => Utf8.decode?_eq_some
    cases hc : Utf8.decode? c with
    | none =>
      refine iff_of_false (by simp [hc]) fun heq => ?_
      rw [(hdecode _).2 (Except.ok.inj heq)] at hc
      cases hc
    | some s =>
      simp only [hc, Except.ok.injEq, ← hdecode, Option.some.injEq]
      constructor
      · rintro rfl
        exact String.toList_ofList.symm
      · rintro rfl
        exact String.ofList_toList

end FileSystem

theorem Outcome.exitCode_eq_zero {o : Outcome} : o.exitCode = 0 ↔ o.trouble = none := by
  unfold exitCode
  cases o.trouble <;> simp

theorem ReferenceArgs.resolve_eq_ok {args : ReferenceArgs} {config : Config}
    {configPath : Option Path} {p : Plan} (h : args.resolve config configPath = .ok p) :
    p.settings.referenceDir = args.referenceDir ∧ p.output ∈ p.settings.skipPaths := by
  unfold resolve at h
  cases hex : Excludes.ofPatterns (args.allPatterns config) with
  | error f => rw [hex] at h; cases h
  | ok excludes =>
    rw [hex] at h
    cases h
    exact ⟨rfl, List.mem_cons_self ..⟩

namespace Invocation

variable {i : Invocation} {fs fs' after : FileSystem} {args : ReferenceArgs}

/-- The settings and the output of the run, with the configuration file as it is on the disk. -/
def plan (i : Invocation) (fs : FileSystem) : Except Failure Plan :=
  match i.config with
  | none => i.command.args.resolve {} none
  | some file =>
    match (Config.load fs file).result with
    | .error f => .error f
    | .ok config => i.command.args.resolve config (some file)

theorem plan_congr (h : ∀ file, i.config = some file → fs'.readText file = fs.readText file) :
    i.plan fs' = i.plan fs := by
  rw [plan, plan]
  cases hconfig : i.config with
  | none => rfl
  | some file => simp only [Config.load, h file hconfig]

theorem readText_of_plan {p : Plan} {file : Path} (hconfig : i.config = some file)
    (h : i.plan fs = .ok p) : ∃ text, fs.readText file = .ok text := by
  rw [plan, hconfig] at h
  simp only [Config.load] at h
  cases hread : fs.readText file with
  | error f => rw [hread] at h; cases h
  | ok text => exact ⟨text, rfl⟩

theorem plan_eq_ok {p : Plan} (h : i.plan fs = .ok p) :
    p.settings.referenceDir = i.command.args.referenceDir ∧
      p.output ∈ p.settings.skipPaths := by
  unfold plan at h
  split at h
  · exact ReferenceArgs.resolve_eq_ok h
  · split at h
    · cases h
    · exact ReferenceArgs.resolve_eq_ok h

/-- The manifest for the plan of a run, with the plan. -/
def generateFor (fs : FileSystem) : Except Failure Plan → Except Failure (Plan × Generated)
  | .error f => .error f
  | .ok p =>
    match (Generation.generate fs p.settings).result with
    | .error f => .error f
    | .ok g => .ok (p, g)

/-- The plan of the run and its manifest, all that it has found out when its command takes over. -/
def generated (i : Invocation) (fs : FileSystem) : Except Failure (Plan × Generated) :=
  generateFor fs (i.plan fs)

theorem generated_eq_ok {p : Plan} {g : Generated} :
    i.generated fs = .ok (p, g) ↔
      i.plan fs = .ok p ∧ (Generation.generate fs p.settings).result = .ok g := by
  unfold generated generateFor
  cases i.plan fs with
  | error f => simp
  | ok q =>
    simp only [Except.ok.injEq]
    cases hgen : (Generation.generate fs q.settings).result with
    | error f =>
      refine iff_of_false (by simp) ?_
      rintro ⟨rfl, hok⟩
      rw [hgen] at hok
      cases hok
    | ok g' =>
      simp only [Except.ok.injEq, Prod.mk.injEq]
      constructor
      · rintro ⟨rfl, rfl⟩
        exact ⟨rfl, hgen⟩
      · rintro ⟨rfl, hok⟩
        rw [hgen] at hok
        exact ⟨rfl, Except.ok.inj hok⟩

end Invocation

/-- What the command does with what the run has found out, after the notices `ns`. -/
def Command.conclude (c : Command) (fs : FileSystem) (ns : List Notice) :
    Except Failure (Plan × Generated) → Outcome
  | .error f => Outcome.failed fs ns f
  | .ok (p, g) =>
    match c with
    | .generate _ stdout => Run.deliver fs p stdout ns g
    | .check _ => Run.compare fs p ns g

theorem Command.conclude_after (c : Command) (fs : FileSystem) (before ns : List Notice)
    (x : Except Failure (Plan × Generated)) :
    { c.conclude fs ns x with notices := before ++ (c.conclude fs ns x).notices } =
      c.conclude fs (before ++ ns) x := by
  cases x with
  | error f => rfl
  | ok found =>
    obtain ⟨p, g⟩ := found
    cases c with
    | generate args stdout =>
      simp only [conclude, Run.deliver]
      split
      · rfl
      · split
        · simp only [List.append_assoc]
        · rfl
    | check args =>
      simp only [conclude, Run.compare]
      split
      · rfl
      · rfl
      · split
        · simp only [List.append_assoc]
        · rfl

namespace Invocation

variable {i : Invocation} {fs fs' after : FileSystem} {args : ReferenceArgs}

/-- A run finds out its settings and its manifest, and its command does the rest. -/
theorem run_eq (i : Invocation) (fs : FileSystem) :
    ∃ ns, i.run fs = i.command.conclude fs ns (i.generated fs) := by
  have hcommand : ∀ config configPath, ∃ ns, i.command.run fs config configPath =
      i.command.conclude fs ns (generateFor fs (i.command.args.resolve config configPath)) := by
    intro config configPath
    rw [Command.run]
    cases i.command.args.resolve config configPath with
    | error f => exact ⟨[], rfl⟩
    | ok p =>
      simp only [generateFor]
      cases Generation.generate fs p.settings with
      | mk ns result =>
        cases result with
        | error f => exact ⟨ns, rfl⟩
        | ok g =>
          cases i.command with
          | generate args stdout => exact ⟨_, rfl⟩
          | check args => exact ⟨_, rfl⟩
  rw [run, generated, plan]
  cases i.config with
  | none => exact hcommand {} none
  | some file =>
    simp only
    cases Config.load fs file with
    | mk ns result =>
      cases result with
      | error f => exact ⟨ns, rfl⟩
      | ok config =>
        obtain ⟨more, hrun⟩ := hcommand config (some file)
        refine ⟨ns ++ more, ?_⟩
        simp only [hrun]
        exact Command.conclude_after ..

theorem run_of_generated_error {f : Failure} (h : i.generated fs = .error f) :
    (i.run fs).trouble = some (.failure [] f) ∧ (i.run fs).disk = fs := by
  obtain ⟨ns, hrun⟩ := run_eq i fs
  rw [hrun, h]
  exact ⟨rfl, rfl⟩

/-- A run of `generate` succeeds exactly if the manifest is generated and written. -/
theorem run_generate (hcommand : i.command = .generate args false) :
    (i.run fs).trouble = none ∧ (i.run fs).disk = after ↔
      ∃ p g, i.plan fs = .ok p ∧ (Generation.generate fs p.settings).result = .ok g ∧
        fs.safeWrite p.output (toOctets g.rendered) = (after, none) := by
  obtain ⟨ns, hrun⟩ := run_eq i fs
  simp only [← and_assoc, ← generated_eq_ok]
  rw [hrun, hcommand]
  cases i.generated fs with
  | error f => simp [Command.conclude, Outcome.failed]
  | ok found =>
    obtain ⟨p, g⟩ := found
    simp only [Command.conclude, Run.deliver, Bool.false_eq_true, if_false, Except.ok.injEq,
      Prod.mk.injEq]
    cases hwrite : fs.safeWrite p.output (toOctets g.rendered) with
    | mk left fault => cases fault <;> simp [Outcome.failed, hwrite]

/-- A run of `check` succeeds exactly if the output holds what a generation gives now. -/
theorem run_check {i : Invocation} (hcommand : i.command = .check args) :
    (i.run fs).trouble = none ↔
      ∃ p g, i.plan fs = .ok p ∧ (Generation.generate fs p.settings).result = .ok g ∧
        fs.readText p.output = .ok g.rendered := by
  obtain ⟨ns, hrun⟩ := run_eq i fs
  simp only [← and_assoc, ← generated_eq_ok]
  rw [hrun, hcommand]
  cases i.generated fs with
  | error f => simp [Command.conclude, Outcome.failed]
  | ok found =>
    obtain ⟨p, g⟩ := found
    simp only [Command.conclude, Run.compare, Except.ok.injEq, Prod.mk.injEq]
    cases hread : fs.readText p.output with
    | error f => cases f <;> simp [Outcome.failed, hread]
    | ok text => by_cases htext : text = g.rendered <;> simp [Outcome.failed, hread, htext]

/-! ## A disk with one template -/

def dnsTemplate : Template := ⟨[toOctets "core", toOctets "dns", toOctets "a.yaml"], []⟩

/-- A disk with an empty template and what stands beside its part. -/
def dnsDisk (beside : List (Name × Node)) : FileSystem :=
  ⟨.dir
    ((toOctets "core", .dir [(toOctets "dns", .dir [(toOctets "a.yaml", .file [])])]) :: beside), []⟩

/-- The template can be filed, so there is a manifest once the template is found. -/
theorem exists_generated_dns {p : Plan} (hplan : i.plan fs = .ok p)
    (hplace : locate fs p.settings.referenceDir = .ok [])
    (hdiscover : (Discovery.discover fs (Path.ofRoot []) p.settings.excludes
      (canonicalSkips fs p.settings.skipPaths)).result = .ok [dnsTemplate]) :
    ∃ g, i.generated fs = .ok (p, g) := by
  have hfiled : ∀ strict,
      (fileAll [] (Hierarchy.start strict) [dnsTemplate]).result.isOk = true := by
    intro strict
    cases strict <;> rfl
  obtain ⟨g, hgenerate⟩ := exists_generated hplace hdiscover (hfiled _)
  exact ⟨g, generated_eq_ok.2 ⟨hplan, hgenerate⟩⟩

theorem safeWrite_dns {target : Path} {beside : List (Name × Node)} {content : Octets}
    (hparent : (dnsDisk beside).ensureParent target = (dnsDisk beside, none))
    (hshort : (((dnsDisk beside).absolute (FileSystem.temporaryDir target)).join
      ⟨FileSystem.temporaryName 0⟩).isTooLong = false)
    (hfind :
      (dnsDisk beside).find true ((dnsDisk beside).absolute (FileSystem.temporaryDir target)) =
        .ok ([], (dnsDisk beside).root))
    (hfresh : FileSystem.freshTemporary? (dnsDisk beside).root.entries =
      some (FileSystem.temporaryName 0))
    (hmove : ((dnsDisk beside).editDir []
      (Node.setEntry (FileSystem.temporaryName 0) (.file content))).moveFile []
        (FileSystem.temporaryName 0) content target = .ok after) :
    (dnsDisk beside).safeWrite target content = (after, none) :=
  FileSystem.safeWrite_ok hparent hshort hfind hfresh hmove

end Invocation
end RefManifest
