import RefManifest.Proofs.Commands
import RefManifest.Proofs.Disk.Temporary
import RefManifest.Proofs.Effects

/-!
# RefManifest.Proofs.Atomicity

A safe write is all or nothing.

A write that fails has made directories above its target and nothing else. A write that succeeds
has in addition put all of the content at the entry that the target names, in the place of a file
or a link if one was there. In both cases the temporary file is gone.

Whether one can write to the same path again depends on the way to the entry. Mostly the path names
the entry as before, and then a second write succeeds and its content stands there (`Put.again`).
But a path can run through the very link that it names, and then it leads nowhere after the first
write (`Put.again_blocked`, `written_through_link`).
-/

namespace RefManifest
namespace FileSystem

open Text Disk Invocation

variable {fs made after : FileSystem} {target : Path} {place : List Name} {n : Name}
  {content : Octets}

theorem Put.again (h : fs.Put made after target place n content) (hvalid : fs.root.Valid)
    (htakes : made.TakesTemporary target) (hnames : after.NamesEntry target place n)
    (content' : Octets) :
    ∃ final, after.safeWrite target content' = (final, none) ∧
      after.Put after final target place n content' := by
  have hfile : after.root.entryAt (place ++ [n]) ≠ some .dir := by simp [h.now]
  refine ⟨_, hnames.safeWrite_eq (h.wrote.valid hvalid) hfile (htakes.of_here h.here) content', ?_⟩
  exact ⟨.refl after _, hnames, hfile, rfl⟩

theorem Put.read_of_not_link (h : fs.Put made after target place n content)
    (hlink : ∀ t, fs.root.entryAt (place ++ [n]) ≠ some (.link t)) :
    after.read target = .ok content :=
  h.read.resolve_right fun hblocked => hblocked.1.elim hlink

/-- A target whose way ran through the link that was replaced cannot be written to again: the
directories that a second write makes do not lead past the file. -/
theorem Put.again_blocked (h : fs.Put made after target place n content)
    (hblocked : made.Blocked target (place ++ [n]) content) (content' : Octets) :
    (after.safeWrite target content').2 ≠ none := by
  intro hnone
  obtain ⟨place', n', hput⟩ := safeWrite_eq_ok (Prod.ext rfl hnone)
  generalize (after.ensureParent target).1 = again at hput
  have hgrew := hput.paved.toGrewTo
  have hstart := (startOf_eq hgrew.here target).trans (startOf_eq h.here target)
  have hleads : Leads again.root true anyPlace maxLinks (again.startOf target)
      ((stepsOf target).dropLast ++ [.here]) place' :=
    hput.names.leads.append (by simp) fun _ => .here hput.names.dir .done
  have hnowhere := hblocked _ (h.placed_made.grown hgrew.tree) [.here] (by simp)
  rw [← hstart, hleads.resolveFrom_eq] at hnowhere
  cases hnowhere

/-- A safe write that fails leaves every file and link as it was, and what is new are directories
above the target. A safe write that succeeds has put the content as a regular file at the entry
that the target names, where no directory was, and all other files and links are as they were. The
target then reads as the content, and can be written to again with the same effect, unless its own
way ran through a link that was replaced: then it reads as nothing, and every further write to it
fails. -/
theorem safeWrite_all_or_nothing (fs : FileSystem) (hvalid : fs.root.Valid) (target : Path)
    (content : Octets) :
    (∀ left fault, fs.safeWrite target content = (left, some fault) →
      fs.SameFiles left (fun _ => False) ∧ fs.Paved left (Path.Above · target)) ∧
    ∀ after, fs.safeWrite target content = (after, none) → ∃ made place n,
      fs.Put made after target place n content ∧
      fs.root.entryAt (place ++ [n]) ≠ some .dir ∧
      after.root.entryAt (place ++ [n]) = some (.file content) ∧
      fs.SameFiles after (· = place ++ [n]) ∧
      (∀ q, q ≠ place ++ [n] → after.root.entryAt q = made.root.entryAt q) ∧
      (after.read target = .ok content ∧
          (∀ content', ∃ final, after.safeWrite target content' = (final, none) ∧
            final.read target = .ok content' ∧
            ∀ q, final.root.entryAt q =
              if q = place ++ [n] then some (.file content') else after.root.entryAt q) ∨
        (∃ t, fs.root.entryAt (place ++ [n]) = some (.link t)) ∧
          made.Blocked target (place ++ [n]) content ∧
          after.read target = .error .notDirectory ∧
          ∀ content', (after.safeWrite target content').2 ≠ none) := by
  refine ⟨fun left fault hfailed => ?_, fun after hwritten => ?_⟩
  · have hpaved := ensureParent_paved fs target
    rw [← safeWrite_eq_error hfailed] at hpaved
    exact ⟨hpaved.toGrewTo.sameFiles _, hpaved⟩
  · obtain ⟨place, n, hput⟩ := safeWrite_eq_ok hwritten
    have htakes := takesTemporary_of_safeWrite hvalid hwritten
    have hgrew := hput.paved.toGrewTo
    refine ⟨_, place, n, hput, fun hd => hput.notDir (hgrew.tree.kept _ _ hd), hput.now,
      (hgrew.sameFiles _).of_entries fun q hq => hput.frame hq, fun q hq => hput.frame hq, ?_⟩
    rcases hput.names_or_blocked with hnames | ⟨hlink, hblocked⟩
    · refine .inl ⟨hput.read_of_names hnames, fun content' => ?_⟩
      obtain ⟨final, hagain, hput'⟩ := hput.again hvalid htakes hnames content'
      refine ⟨final, hagain, hput'.read_of_not_link ?_, hput'.entryAt⟩
      simp [hput.now]
    · exact .inr ⟨hlink, hblocked, hput.read_of_blocked hblocked, hput.again_blocked hblocked⟩

/-- A link is replaced, and the file that stands in its place is replaced by the next write. -/
theorem safeWrite_all_or_nothing_link :
    linkedDisk.root.Valid ∧
      linkedDisk.safeWrite (Path.ofString "l") [] = (unlinkedDisk [], none) ∧
      (unlinkedDisk []).read (Path.ofString "l") = .ok [] ∧
      ∃ final, (unlinkedDisk []).safeWrite (Path.ofString "l") (toOctets "x") = (final, none) ∧
        final.read (Path.ofString "l") = .ok (toOctets "x") := by
  have hvalid : linkedDisk.root.Valid := by decide
  have hread : (unlinkedDisk []).read (Path.ofString "l") = .ok [] := rfl
  have hwritten : linkedDisk.safeWrite (Path.ofString "l") [] = (unlinkedDisk [], none) :=
    safeWrite_dns rfl rfl rfl rfl rfl
  obtain ⟨made, place, n, -, -, -, -, -, hagain | hblocked⟩ :=
    (safeWrite_all_or_nothing linkedDisk hvalid (Path.ofString "l") []).2 _ hwritten
  · obtain ⟨final, hfinal, hread', -⟩ := hagain.2 (toOctets "x")
    exact ⟨hvalid, hwritten, hread, final, hfinal, hread'⟩
  · rw [hread] at hblocked
    cases hblocked.2.2.1

/-- A path that leads through the link that it names is written to, and can then be neither read nor
written to. -/
theorem written_through_link :
    linkedDisk.safeWrite throughLink [] = (unlinkedDisk [], none) ∧
      (unlinkedDisk []).read throughLink = .error .notDirectory ∧
      (unlinkedDisk []).safeWrite throughLink [] =
        (unlinkedDisk [], some (.createDirectory (Path.ofString "l/..") .notDirectory)) := by
  refine ⟨safeWrite_linked [], rfl, ?_⟩
  have hparent : (unlinkedDisk []).ensureParent throughLink =
      (unlinkedDisk [], some (.createDirectory (Path.ofString "l/..") .notDirectory)) := rfl
  rw [safeWrite, hparent]

end FileSystem
end RefManifest
