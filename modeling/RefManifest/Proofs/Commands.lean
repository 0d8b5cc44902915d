import RefManifest.Proofs.CommandLine.Verifying
import RefManifest.Proofs.Run

/-!
# RefManifest.Proofs.Commands

The three commands on one disk: printing a manifest, writing it, and checking it.

Up to its conclusion a run does not look at its command (`run_eq`), so the three fail alike, and
each does something with the same text when they do not. Printing shows the text. Writing puts it
at the entry that the output path names, and a check compares it with what the path reads as.

After the write the path reads as the text again, with one exception: a path can run through the
very link that it names, as `l/../l` does, and is blocked once a file stands there
(`replaced_link_blocks_output`).
-/

namespace RefManifest

open Text Disk Generation

namespace Invocation

variable {i : Invocation} {fs : FileSystem} {p : Plan} {g : Generated}

/-- The same invocation, asked to print its manifest. -/
def printing (i : Invocation) : Invocation := { i with command := .generate i.command.args true }

/-- The same invocation, asked to write its manifest. -/
def writing (i : Invocation) : Invocation := { i with command := .generate i.command.args false }

theorem generated_congr {j : Invocation} (hconfig : j.config = i.config)
    (hargs : j.command.args = i.command.args) (fs : FileSystem) :
    j.generated fs = i.generated fs := by
  rw [generated, generated, plan, plan, hconfig, hargs]

/-- A check ends well exactly if the output reads as the octets of the text. -/
theorem verifying_of_generated (h : i.generated fs = .ok (p, g)) :
    (i.verifying.run fs).trouble = none ↔ fs.read p.output = .ok (toOctets g.rendered) := by
  have hsame : i.verifying.generated fs = .ok (p, g) := (generated_congr rfl rfl fs).trans h
  have hcheck : i.verifying.command = .check i.command.args := rfl
  simp only [run_check hcheck, FileSystem.readText_eq_ok, ← and_assoc, ← generated_eq_ok, hsame]
  constructor
  · rintro ⟨p', g', hsame, hread⟩
    cases hsame
    exact hread
  · intro hread
    exact ⟨p, g, rfl, hread⟩

theorem printing_of_generated (h : i.generated fs = .ok (p, g)) :
    (i.printing.run fs).trouble = none ∧ (i.printing.run fs).stdout = g.rendered := by
  have hsame : i.printing.generated fs = .ok (p, g) := (generated_congr rfl rfl fs).trans h
  obtain ⟨ns, hrun⟩ := run_eq i.printing fs
  rw [hrun, hsame]
  exact ⟨rfl, rfl⟩

/-- The three commands agree. If printing fails, writing and checking fail with the same error. If
it prints a text, writing that ends well leaves the octets of the text at the entry that the output
path names, behind directories that were made on the way, and the path reads as these octets unless
a link was replaced there and the path itself runs through that link, which then blocks its way; and
a check ends well exactly if the path reads as these octets. -/
theorem commands_agree (i : Invocation) (fs : FileSystem) :
    let printed := i.printing.run fs
    let written := i.writing.run fs
    let verified := i.verifying.run fs
    (∀ t, printed.trouble = some t → written.trouble = some t ∧ verified.trouble = some t) ∧
    (printed.trouble = none → ∃ p, i.plan fs = .ok p ∧
      (written.exitCode = 0 → ∃ made place n,
        fs.Put made written.disk p.output place n (toOctets printed.stdout) ∧
        (written.disk.read p.output = .ok (toOctets printed.stdout) ∨
          (∃ t, fs.root.entryAt (place ++ [n]) = some (.link t)) ∧
            made.Blocked p.output (place ++ [n]) (toOctets printed.stdout) ∧
            written.disk.read p.output = .error .notDirectory)) ∧
      (verified.exitCode = 0 ↔ fs.read p.output = .ok (toOctets printed.stdout))) := by
  intro printed written verified
  cases hgen : i.generated fs with
  | error f =>
    have hsame : ∀ j : Invocation, j.config = i.config → j.command.args = i.command.args →
        (j.run fs).trouble = some (.failure [] f) := fun j hconfig hargs =>
      (run_of_generated_error ((generated_congr hconfig hargs fs).trans hgen)).1
    have hprinted : printed.trouble = some (.failure [] f) := hsame i.printing rfl rfl
    refine ⟨fun t ht => ?_, fun hnone => ?_⟩
    · rw [← ht, hprinted]
      exact ⟨hsame i.writing rfl rfl, hsame i.verifying rfl rfl⟩
    · rw [hprinted] at hnone
      cases hnone
  | ok found =>
    obtain ⟨p, g⟩ := found
    obtain ⟨hprinted, hstdout⟩ := printing_of_generated hgen
    obtain ⟨hplan, hgenerate⟩ := generated_eq_ok.1 hgen
    refine ⟨fun t ht => ?_, fun _ => ⟨p, hplan, fun hexit => ?_, ?_⟩⟩
    · have : printed.trouble = none := hprinted
      rw [this] at ht
      cases ht
    · have hok := Outcome.exitCode_eq_zero.1 hexit
      obtain ⟨p', g', hplan', hgenerate', hwrite⟩ := (run_generate rfl).1 ⟨hok, rfl⟩
      have hsame : i.writing.generated fs = i.generated fs := generated_congr rfl rfl fs
      have hgen' := generated_eq_ok.2 ⟨hplan', hgenerate'⟩
      rw [hsame, hgen] at hgen'
      cases hgen'
      rw [← hstdout] at hwrite
      obtain ⟨place, n, hput⟩ := FileSystem.safeWrite_eq_ok hwrite
      refine ⟨_, place, n, hput, hput.names_or_blocked.imp hput.read_of_names ?_⟩
      exact fun hblocked => ⟨hblocked.1, hblocked.2, hput.read_of_blocked hblocked.2⟩
    · rw [Outcome.exitCode_eq_zero, hstdout]
      exact verifying_of_generated hgen

/-! ## A path that runs through the link it names -/

section ReplacedLink

/-- A disk with one template and a link to the directory above it. -/
def linkedDisk : FileSystem := dnsDisk [(toOctets "l", .link (Path.ofString "core"))]

/-- The path leads through the link and back, and then names the link. -/
def throughLink : Path := Path.ofString "l/../l"

def linkedRun : Invocation :=
  ⟨false, false, none, .generate ⟨Path.ofString ".", some throughLink, none, none, []⟩ false⟩

def linkedPlan : Plan :=
  ⟨⟨Path.ofString ".", false, .yaml, ⟨[]⟩,
    [throughLink, Path.ofString "./metadata.yml", Path.ofString "./metadata.json"]⟩, throughLink⟩

/-- The disk with the link replaced by a file. -/
def unlinkedDisk (content : Octets) : FileSystem := dnsDisk [(toOctets "l", .file content)]

theorem safeWrite_linked (content : Octets) :
    linkedDisk.safeWrite throughLink content = (unlinkedDisk content, none) :=
  safeWrite_dns rfl rfl rfl rfl rfl

/-- Printing and writing end well, and the output path leads nowhere afterwards. -/
theorem replaced_link_blocks_output :
    linkedRun.plan linkedDisk = .ok linkedPlan ∧
      (linkedRun.printing.run linkedDisk).exitCode = 0 ∧
      (linkedRun.writing.run linkedDisk).exitCode = 0 ∧
      (linkedRun.writing.run linkedDisk).disk.read linkedPlan.output = .error .notDirectory := by
  have hplan : linkedRun.plan linkedDisk = .ok linkedPlan := rfl
  obtain ⟨g, hgen⟩ : ∃ g, linkedRun.generated linkedDisk = .ok (linkedPlan, g) :=
    exists_generated_dns hplan rfl rfl
  have hprinted := (printing_of_generated hgen).1
  obtain ⟨-, hgenerate⟩ := generated_eq_ok.1 hgen
  obtain ⟨htrouble, hdisk⟩ := (run_generate (i := linkedRun.writing) rfl).2
    ⟨linkedPlan, g, hplan, hgenerate, safeWrite_linked (toOctets g.rendered)⟩
  have hread : ∀ content, (unlinkedDisk content).read throughLink = .error .notDirectory := by
    intro content
    rfl
  refine ⟨hplan, Outcome.exitCode_eq_zero.2 hprinted, Outcome.exitCode_eq_zero.2 htrouble, ?_⟩
  rw [hdisk]
  exact hread _

end ReplacedLink
end Invocation
end RefManifest
