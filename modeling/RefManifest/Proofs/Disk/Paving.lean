import Mathlib.Logic.Relation
import RefManifest.Disk.Write
import RefManifest.Proofs.Disk.Change
import RefManifest.Proofs.Disk.Steps

/-!
# RefManifest.Proofs.Disk.Paving

The directories that a write makes on the way to its target.

`GrewTo` says that a file system has new directories and is otherwise as it was. `Paved` adds
which ones: each new directory is named by some path of the way, and for a write that is a path
above the target (`ensureParent_paved`). This holds whether all of them could be made or not.
-/

namespace RefManifest

/-- The path `r` is `p`, or the parent of `p`, or the parent of that, and so on. -/
def Path.AtOrAbove (r p : Path) : Prop := Relation.ReflTransGen (fun a b => a.parent? = some b) p r

/-- The path `r` is the parent of `p`, or the parent of that, and so on. -/
def Path.Above (r p : Path) : Prop := ∃ q, p.parent? = some q ∧ r.AtOrAbove q

namespace Disk

theorem admissible_eq_ok {p : Path} :
    admissible p = .ok () ↔
      (0 : UInt8) ∉ p.octets ∧ p.isEmpty = false ∧ p.isTooLong = false := by
  unfold admissible
  by_cases hnul : (0 : UInt8) ∈ p.octets
  · simp [hnul]
  · cases hempty : p.isEmpty <;> cases hlong : p.isTooLong <;> simp [hnul]

/-- Only an empty path is missing before it is looked at. -/
theorem admissible_ne_missing {p : Path} {f : Fault} (hp : p.isEmpty = false)
    (h : admissible p = .error f) : f ≠ .missing := by
  rintro rfl
  simp only [admissible, hp] at h
  split at h
  · cases h
  · split at h
    · contradiction
    · split at h <;> cases h

end Disk

namespace FileSystem

open Text Disk

/-- The file system `after` is `fs` with new directories. -/
structure GrewTo (fs after : FileSystem) : Prop where
  here : after.here = fs.here
  tree : Grown fs.root after.root
  valid : fs.root.Valid → after.root.Valid

/-- Each of the new directories is one that a path of the way leads to. -/
structure Paved (fs after : FileSystem) (way : Path → Prop) : Prop extends fs.GrewTo after where
  named : ∀ q, fs.root.entryAt q = none → after.root.entryAt q ≠ none →
    ∃ r, way r ∧ after.LeadsTo true r q

/-- The path names the entry `n` of the directory at `place`, whether something is there or not. -/
structure NamesEntry (fs : FileSystem) (p : Path) (place : List Name) (n : Name) : Prop where
  admissible : admissible p = .ok ()
  short : n.length ≤ maxNameLength
  last : (stepsOf p).getLast? = some (.name n)
  leads : Leads fs.root true anyPlace maxLinks (fs.startOf p) (stepsOf p).dropLast place
  dir : fs.root.entryAt place = some .dir

variable {fs made after : FileSystem} {p : Path} {place : List Name} {n : Name}

theorem startOf_eq (h : after.here = fs.here) (p : Path) : after.startOf p = fs.startOf p := by
  rw [startOf, startOf, h]

namespace GrewTo

theorem refl (fs : FileSystem) : fs.GrewTo fs := ⟨rfl, .refl _, fun h => h⟩

theorem trans {a b c : FileSystem} (h : a.GrewTo b) (h' : b.GrewTo c) : a.GrewTo c :=
  ⟨h'.here.trans h.here, h.tree.trans h'.tree, fun hv => h'.valid (h.valid hv)⟩

theorem leadsTo (h : fs.GrewTo after) {follow : Bool} {q : List Name}
    (hp : fs.LeadsTo follow p q) : after.LeadsTo follow p q := by
  rw [LeadsTo, startOf_eq h.here]
  exact hp.of_alike fun q e hq => ⟨e, h.tree.kept q e hq, .inl rfl⟩

end GrewTo

namespace Paved

variable {way way' : Path → Prop}

theorem refl (fs : FileSystem) (way : Path → Prop) : fs.Paved fs way :=
  ⟨.refl fs, fun _ hq hq' => absurd hq hq'⟩

theorem trans {a b c : FileSystem} (h : a.Paved b way) (h' : b.Paved c way) : a.Paved c way := by
  refine ⟨h.toGrewTo.trans h'.toGrewTo, fun q hq hq' => ?_⟩
  by_cases hb : b.root.entryAt q = none
  · exact h'.named q hb hq'
  · obtain ⟨r, hr, hleads⟩ := h.named q hq hb
    exact ⟨r, hr, h'.toGrewTo.leadsTo hleads⟩

theorem mono (h : fs.Paved after way) (hway : ∀ r, way r → way' r) : fs.Paved after way' := by
  refine ⟨h.toGrewTo, fun q hq hq' => ?_⟩
  obtain ⟨r, hr, hleads⟩ := h.named q hq hq'
  exact ⟨r, hway r hr, hleads⟩

end Paved

theorem findDir_eq_ok {steps : List Step} {es : List (Name × Node)}
    (h : fs.findDir p steps = .ok (place, es)) :
    Leads fs.root true anyPlace maxLinks (fs.startOf p) steps place ∧
      fs.root.get? place = some (.dir es) := by
  unfold findDir at h
  cases hres : resolveFrom fs.root true anyPlace maxLinks (fs.startOf p) steps with
  | error f => rw [hres] at h; cases h
  | ok q =>
    rw [hres] at h
    simp only at h
    cases hget : fs.root.get? q with
    | none => rw [hget] at h; cases h
    | some x =>
      rw [hget] at h
      cases x with
      | file c => cases h
      | link t => cases h
      | dir es' =>
        cases h
        exact ⟨leads_iff.1 hres, hget⟩

namespace NamesEntry

theorem validName (h : fs.NamesEntry p place n) : Node.ValidName n :=
  validName_of_mem_stepsOf (admissible_eq_ok.1 h.admissible).1 (List.mem_of_getLast? h.last)

theorem steps_eq (h : fs.NamesEntry p place n) :
    stepsOf p = (stepsOf p).dropLast ++ [.name n] :=
  (List.dropLast_append_getLast? _ h.last).symm

/-- The path leads to its entry, where that is no link. -/
theorem leadsTo (h : fs.NamesEntry p place n) {e : Entry}
    (he : fs.root.entryAt (place ++ [n]) = some e) (hlink : ∀ t, e ≠ .link t) :
    fs.LeadsTo true p (place ++ [n]) := by
  rw [LeadsTo, h.steps_eq]
  exact h.leads.append (by simp) fun left => .enter h.dir h.short rfl he hlink .done

theorem of_alike (h : fs.NamesEntry p place n) (hhere : after.here = fs.here)
    (halike : ∀ q e, fs.root.entryAt q = some e →
      ∃ e', after.root.entryAt q = some e' ∧ e.Alike e') : after.NamesEntry p place n := by
  refine ⟨h.admissible, h.short, h.last, ?_, ?_⟩
  · rw [startOf_eq hhere]
    exact h.leads.of_alike halike
  · obtain ⟨e', he', rfl | ⟨b, b', hb, -⟩⟩ := halike place _ h.dir
    · exact he'
    · cases hb

end NamesEntry

/-! ## Making directories -/

theorem makeDir_eq_ok (h : fs.makeDir p = .ok made) :
    ∃ place n, fs.NamesEntry p place n ∧ fs.root.entryAt (place ++ [n]) = none ∧
      made = fs.editDir place (Node.setEntry n (.dir [])) := by
  unfold makeDir at h
  cases hadm : Disk.admissible p with
  | error f => rw [hadm] at h; cases h
  | ok u =>
    rw [hadm] at h
    simp only at h
    cases hfind : fs.findDir p (stepsOf p).dropLast with
    | error f => rw [hfind] at h; cases h
    | ok found =>
      obtain ⟨place, es⟩ := found
      rw [hfind] at h
      simp only at h
      obtain ⟨hleads, hget⟩ := findDir_eq_ok hfind
      split at h
      · rename_i n hlast
        split at h
        · cases h
        · rename_i hlen
          split at h
          · cases h
          · rename_i hnew
            cases h
            refine ⟨place, n, ⟨hadm, by omega, hlast, hleads, Node.entryAt_eq_dir.2 ⟨es, hget⟩⟩,
              ?_, rfl⟩
            rw [Node.entryAt_concat hget]
            cases hl : es.lookup n with
            | none => rfl
            | some y => rw [hl] at hnew; exact absurd rfl hnew
      · cases h

theorem makeDir_paved (h : fs.makeDir p = .ok made) : fs.Paved made (· = p) := by
  obtain ⟨place, n, hnames, hnone, rfl⟩ := makeDir_eq_ok h
  have hgrown := Grown.of_makeDir hnames.dir hnone
  have hentry := fun q => Node.entryAt_setEntry hnames.dir (by rw [hnone]; simp)
    Node.isBare_emptyDir q
  have hkept : (fs.editDir place (Node.setEntry n (.dir []))).NamesEntry p place n :=
    hnames.of_alike rfl fun q e hq => ⟨e, hgrown.kept q e hq, .inl rfl⟩
  refine ⟨⟨rfl, hgrown, fun hv =>
    Node.valid_setEntry hv hnames.validName (Node.valid_dir_iff.2 (by simp))⟩, fun q hq hq' => ?_⟩
  by_cases hnew : q = place ++ [n]
  · subst hnew
    refine ⟨p, rfl, hkept.leadsTo ((hentry _).trans (if_pos rfl)) ?_⟩
    simp [Node.entry]
  · exact absurd ((hentry q).trans (by rw [if_neg hnew, hq])) hq'

/-- Making the missing directories only makes directories on the way, also when it fails. -/
theorem makeDirsWithin_paved (fs : FileSystem) (p : Path) (depth : Nat) :
    fs.Paved (fs.makeDirsWithin p depth).1 (Path.AtOrAbove · p) := by
  have hself : ∀ {a b : FileSystem} {p : Path}, a.makeDir p = .ok b →
      a.Paved b (Path.AtOrAbove · p) :=
    fun h => (makeDir_paved h).mono fun r hr => hr ▸ Relation.ReflTransGen.refl
  induction depth generalizing p with
  | zero => exact .refl fs _
  | succ depth ih =>
    unfold makeDirsWithin
    split
    · exact .refl fs _
    · split
      · rename_i made hmade
        exact hself hmade
      · split
        · exact .refl fs _
        · rename_i q hparent
          have habove : fs.Paved (fs.makeDirsWithin q depth).1 (Path.AtOrAbove · p) :=
            (ih q).mono fun r hr => Relation.ReflTransGen.head hparent hr
          split
          · rename_i above f hq
            rw [hq] at habove
            exact habove
          · rename_i above hq
            rw [hq] at habove
            split
            · rename_i made hmade
              exact habove.trans (hself hmade)
            · split
              · exact habove
              · exact habove
      · split
        · exact .refl fs _
        · exact .refl fs _

theorem ensureParent_paved (fs : FileSystem) (p : Path) :
    fs.Paved (fs.ensureParent p).1 (Path.Above · p) := by
  unfold ensureParent
  split
  · exact .refl fs _
  · rename_i parent hparent
    split
    · exact .refl fs _
    · split
      · split
        · exact .refl fs _
        · exact .refl fs _
      · have hmade : fs.Paved (fs.makeDirs parent).1 (Path.Above · p) :=
          (makeDirsWithin_paved fs parent _).mono fun r hr => ⟨parent, hparent, hr⟩
        split
        · rename_i made h
          rw [h] at hmade
          exact hmade
        · rename_i made f h
          rw [h] at hmade
          exact hmade

theorem ensureParent_of_missing {made : FileSystem} {q : Path} (hparent : p.parent? = some q)
    (hsome : q.isEmpty = false) (hmissing : fs.holds q = false)
    (hmade : fs.makeDirs q = (made, none)) : fs.ensureParent p = (made, none) := by
  rw [ensureParent, hparent]
  simp only [hsome, hmissing, hmade, Bool.false_eq_true, if_false]

/-- Nothing is made if the parent leads to a directory, also when the system does not take it. -/
theorem ensureParent_of_dir {q : Path} (hparent : p.parent? = some q)
    (hq : fs.LeadsTo true q place) (hdir : fs.root.entryAt place = some .dir) :
    (fs.ensureParent p).1 = fs := by
  rw [ensureParent, hparent]
  simp only
  cases hempty : q.isEmpty with
  | true => rfl
  | false =>
    cases hadm : Disk.admissible q with
    | ok u =>
      obtain ⟨es, hget⟩ := Node.entryAt_eq_dir.1 hdir
      have hfind : fs.find true q = .ok (place, .dir es) :=
        find_eq_ok.2 ⟨locate_eq_ok.2 ⟨hadm, hq⟩, hget⟩
      have hholds : fs.holds q = true := by rw [holds, hfind]; rfl
      have hisDir : fs.isDirectory q = true := by rw [isDirectory, hfind]; rfl
      simp [hholds, hisDir]
    | error f =>
      have hfind : fs.find true q = .error f := by rw [find, locate, hadm]
      have hholds : fs.holds q = false := by rw [holds, hfind]; rfl
      have hisDir : fs.isDirectory q = false := by rw [isDirectory, hfind]
      have hmake : fs.makeDir q = .error f := by rw [makeDir, hadm]
      have hf : f ≠ .missing := admissible_ne_missing hempty hadm
      have hmakes : fs.makeDirs q = (fs, some f) := by
        rw [makeDirs, makeDirsWithin, hempty, hmake]
        simp only [Bool.false_eq_true, if_false, hisDir]
      simp [hholds, hmakes]

end FileSystem
end RefManifest
