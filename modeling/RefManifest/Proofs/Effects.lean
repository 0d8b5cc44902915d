import RefManifest.Proofs.Run

/-!
# RefManifest.Proofs.Effects

What a run changes on the disk.

Only a run of `generate` that does not print writes anything. Its one write can stop at every
stage, and whatever it has put on the disk by then is a directory above the output, for the
temporary file is gone again. If it succeeds, the entry that the output path names is the
manifest, and no other file or link has changed.

* `SameFiles`: the frame, which the new directories keep (`GrewTo.sameFiles`).
* `run_changes`: what the disk holds after a run, for each way it can end.
-/

namespace RefManifest

open Text Disk

namespace FileSystem

variable {fs made after : FileSystem} {place : List Name} {n : Name} {c : Octets}

/-- Regular files, with what is in them, and links are the same in both, but for the places that
are left out. -/
def SameFiles (fs after : FileSystem) (leftOut : List Name → Prop) : Prop :=
  ∀ q e, ¬ leftOut q → e ≠ .dir → (after.root.entryAt q = some e ↔ fs.root.entryAt q = some e)

theorem GrewTo.sameFiles (h : fs.GrewTo made) (leftOut : List Name → Prop) :
    fs.SameFiles made leftOut := by
  intro q e _ he
  constructor
  · intro hmade
    cases hfs : fs.root.entryAt q with
    | none => exact absurd (h.tree.fresh q e hfs hmade) he
    | some e' =>
      rw [h.tree.kept q e' hfs] at hmade
      exact hmade
  · exact h.tree.kept q e

theorem SameFiles.of_entries {leftOut : List Name → Prop} (h : fs.SameFiles made leftOut)
    (heq : ∀ q, ¬ leftOut q → after.root.entryAt q = made.root.entryAt q) :
    fs.SameFiles after leftOut := by
  intro q e hq he
  rw [heq q hq]
  exact h q e hq he

end FileSystem

namespace Invocation

variable {i : Invocation} {fs : FileSystem} {args : ReferenceArgs}

/-- The run is asked to write its manifest. -/
def Writes (i : Invocation) : Prop := ∃ args, i.command = .generate args false

theorem disk_of_not_writes (h : ¬ i.Writes) : (i.run fs).disk = fs := by
  obtain ⟨ns, hrun⟩ := run_eq i fs
  rw [hrun]
  cases i.generated fs with
  | error f => rfl
  | ok found =>
    obtain ⟨p, g⟩ := found
    cases hcommand : i.command with
    | generate args stdout =>
      cases stdout with
      | false => exact absurd ⟨args, hcommand⟩ h
      | true => rfl
    | check args =>
      simp only [Command.conclude, Run.compare]
      split
      · rfl
      · rfl
      · split <;> rfl

/-- A run that was to write and failed leaves the directories that it has made. -/
theorem disk_of_failed (hcommand : i.command = .generate args false)
    (h : (i.run fs).trouble ≠ none) :
    (i.run fs).disk = fs ∨
      ∃ p, i.plan fs = .ok p ∧ (i.run fs).disk = (fs.ensureParent p.output).1 := by
  obtain ⟨ns, hrun⟩ := run_eq i fs
  rw [hrun, hcommand] at h ⊢
  cases hgen : i.generated fs with
  | error f => exact .inl rfl
  | ok found =>
    obtain ⟨p, g⟩ := found
    simp only [hgen, Command.conclude, Run.deliver, Bool.false_eq_true, if_false] at h ⊢
    refine .inr ⟨p, (generated_eq_ok.1 hgen).1, ?_⟩
    cases hwrite : fs.safeWrite p.output (toOctets g.rendered) with
    | mk left fault =>
      cases fault with
      | none =>
        rw [hwrite] at h
        exact absurd rfl h
      | some fault => exact FileSystem.safeWrite_eq_error hwrite

/-- What a run leaves on the disk. A run that does not write leaves the disk as it is. A run that
writes and fails leaves every file and link as it was, a temporary file does not stay, and what is
new are directories above the output. A run that writes and succeeds has, after such directories,
put the manifest as a regular file at the entry that the output path names, in the place of a file
or a link if one was there, and all other files and links are as they were. -/
theorem run_changes (i : Invocation) (fs : FileSystem) :
    let after := (i.run fs).disk
    (¬ i.Writes → after = fs) ∧
    (i.Writes → (i.run fs).exitCode = 1 →
      after = fs ∨ ∃ p, i.plan fs = .ok p ∧
        fs.SameFiles after (fun _ => False) ∧ fs.Paved after (Path.Above · p.output)) ∧
    (i.Writes → (i.run fs).exitCode = 0 →
      ∃ p g made place n, i.plan fs = .ok p ∧
        (Generation.generate fs p.settings).result = .ok g ∧
        fs.Paved made (Path.Above · p.output) ∧ made.NamesEntry p.output place n ∧
        fs.root.entryAt (place ++ [n]) ≠ some .dir ∧
        after.root.entryAt (place ++ [n]) = some (.file (toOctets g.rendered)) ∧
        fs.SameFiles after (· = place ++ [n]) ∧
        ∀ q, q ≠ place ++ [n] → after.root.entryAt q = made.root.entryAt q) := by
  intro after
  refine ⟨disk_of_not_writes, ?_, ?_⟩
  · rintro ⟨args, hcommand⟩ hexit
    have hfail : (i.run fs).trouble ≠ none := by
      rw [Ne, ← Outcome.exitCode_eq_zero, hexit]
      exact Nat.one_ne_zero
    refine (disk_of_failed hcommand hfail).imp_right ?_
    rintro ⟨p, hplan, hdisk⟩
    have hpaved := FileSystem.ensureParent_paved fs p.output
    rw [← hdisk] at hpaved
    exact ⟨p, hplan, hpaved.toGrewTo.sameFiles _, hpaved⟩
  · rintro ⟨args, hcommand⟩ hexit
    rw [Outcome.exitCode_eq_zero] at hexit
    obtain ⟨p, g, hplan, hgenerate, hwrite⟩ := (run_generate hcommand).1 ⟨hexit, rfl⟩
    obtain ⟨place, n, hput⟩ := FileSystem.safeWrite_eq_ok hwrite
    have hgrew := hput.paved.toGrewTo
    refine ⟨p, g, _, place, n, hplan, hgenerate, hput.paved, hput.names,
      fun hd => hput.notDir (hgrew.tree.kept _ _ hd), hput.now, ?_, fun q hq => hput.frame hq⟩
    exact (hgrew.sameFiles _).of_entries fun q hq => hput.frame hq

end Invocation
end RefManifest
