import Mathlib.Data.Finset.Card
import RefManifest.Proofs.Disk.Spelling
import RefManifest.Proofs.Disk.Write
import RefManifest.Proofs.Text.Utf8

/-!
# RefManifest.Proofs.Disk.Temporary

The temporary file of a safe write, and when a safe write succeeds.

A directory has a free temporary name, since the names that are tried are more than its entries
(`exists_freshTemporary`). The directory that holds the file is the one whose entry the target
names, however the two are spelled (`NamesEntry.leadsTo_temporaryDir`), and its absolute path leads
there too (`leadsTo_absolute`). So a write fails for the sake of its temporary file only if the
system does not take the absolute path of it, which is `TakesTemporary`, and apart from that it
succeeds as soon as the target names an entry (`NamesEntry.safeWrite_eq`).
-/

namespace RefManifest
namespace FileSystem

open Text Disk

variable {fs made after : FileSystem} {p q target : Path} {content : Octets} {place : List Name}
  {n : Name}

theorem ofDigitChars_zeros (k : Nat) (digits : List Char) :
    Nat.ofDigitChars 10 (List.replicate k '0' ++ digits) 0 = Nat.ofDigitChars 10 digits 0 := by
  induction k with
  | zero => rfl
  | succ k ih => rw [List.replicate_succ, List.cons_append, Nat.ofDigitChars_cons]; exact ih

theorem temporaryName_injective : Function.Injective temporaryName := by
  intro j k h
  simp only [temporaryName, List.append_left_inj, List.append_right_inj] at h
  have hdigits := congrArg Utf8.decode? h
  rw [Utf8.decode?_encode, Utf8.decode?_encode, Option.some_inj] at hdigits
  have hnumber := congrArg (fun cs => Nat.ofDigitChars 10 cs 0) hdigits
  simpa [ofDigitChars_zeros, Nat.ofDigitChars_toDigits] using hnumber

/-- The entries of a directory cannot take all the names that are tried. -/
theorem exists_freshTemporary (es : List (Name × Node)) :
    ∃ m, freshTemporary? es = some m := by
  rw [← Option.isSome_iff_exists, freshTemporary?, List.find?_isSome]
  by_contra hnone
  have htaken : ∀ k ∈ Finset.range (es.length + 1),
      temporaryName k ∈ (es.map (·.1)).toFinset := by
    intro k hk
    have hmem := List.mem_map_of_mem (f := temporaryName) (List.mem_range.2 (Finset.mem_range.1 hk))
    have hlook : es.lookup (temporaryName k) ≠ none := fun h => hnone ⟨_, hmem, by rw [h]; rfl⟩
    obtain ⟨x, hx⟩ := Option.ne_none_iff_exists'.1 hlook
    exact List.mem_toFinset.2 (List.mem_map.2 ⟨_, Node.mem_of_lookup hx, rfl⟩)
  have hcard := Finset.card_le_card_of_injOn temporaryName htaken temporaryName_injective.injOn
  have hlength := List.toFinset_card_le (es.map (·.1))
  rw [Finset.card_range] at hcard
  rw [List.length_map] at hlength
  omega

/-- A path whose last step goes to a name has that name as its last component, and the moves of the
components before it are those of the steps before it. -/
theorem components_of_last (h : (stepsOf p).getLast? = some (.name n)) :
    ∃ front, p.components = front ++ [.name n] ∧
      front.filterMap Path.Component.move? = (stepsOf p).dropLast.filter Step.moves := by
  obtain ⟨before, hbefore⟩ := List.getLast?_eq_some_iff.1 h
  have hmoves := movesOf_eq p
  obtain ⟨init, last, hpieces, -, hlast⟩ := List.map_eq_append_iff.1 hbefore
  obtain ⟨x, rfl, hx⟩ := List.map_eq_singleton_iff.1 hlast
  have hcomponent : Path.ofPiece x = some (.name n) := by
    unfold Step.ofPiece at hx
    unfold Path.ofPiece
    split at hx
    · cases hx
    · split at hx <;> cases hx
      simp_all
  have hcomponents : p.components = (p.opening ++ init.filterMap Path.ofPiece) ++ [.name n] := by
    rw [Path.components_eq, hpieces, List.filterMap_append, List.filterMap_cons, hcomponent,
      List.filterMap_nil, List.append_assoc]
  refine ⟨_, hcomponents, ?_⟩
  rw [hcomponents, movesOf, hbefore, List.filter_append, List.filterMap_append] at hmoves
  rw [hbefore, List.dropLast_concat]
  exact (List.append_cancel_right hmoves).symm

theorem temporaryDir_of_last (h : (stepsOf p).getLast? = some (.name n)) :
    movesOf (temporaryDir p) = (stepsOf p).dropLast.filter Step.moves ∧
      (temporaryDir p).isAbsolute = p.isAbsolute := by
  obtain ⟨front, hcomponents, hmoves⟩ := components_of_last h
  have hdropLast : p.components.dropLast = front := by rw [hcomponents, List.dropLast_concat]
  -- A name alone is beside the place where the path starts.
  have hhere : front = [] → movesOf ⟨[Path.dot]⟩ = (stepsOf p).dropLast.filter Step.moves ∧
      Path.isAbsolute ⟨[Path.dot]⟩ = p.isAbsolute := by
    rintro rfl
    refine ⟨hmoves, ?_⟩
    have hrel : ¬ p.isAbsolute = true := by rw [Path.isAbsolute_iff, hcomponents]; simp
    rw [Bool.not_eq_true] at hrel
    rw [hrel]
    rfl
  unfold temporaryDir
  cases hparent : p.parent? with
  | none => exact hhere (hdropLast ▸ Path.dropLast_of_no_parent hparent)
  | some q =>
    have hq : q.components = front := (Path.components_parent hparent).trans hdropLast
    simp only
    split
    · rename_i hempty
      obtain ⟨o⟩ := q
      have ho : o = [] := List.isEmpty_iff.1 hempty
      subst ho
      exact hhere hq.symm
    · refine ⟨by rw [movesOf_eq, hq, hmoves], ?_⟩
      rw [Bool.eq_iff_iff, Path.isAbsolute_iff, Path.isAbsolute_iff, hq, hcomponents]
      cases front <;> simp

theorem NamesEntry.leadsTo_temporaryDir (h : fs.NamesEntry p place n) :
    fs.LeadsTo true (temporaryDir p) place := by
  obtain ⟨hmoves, habsolute⟩ := temporaryDir_of_last h.last
  rw [LeadsTo, startOf, habsolute]
  exact h.leads.respell h.dir hmoves

theorem dir_here (hp : p.isAbsolute = false) (h : fs.LeadsTo true p place)
    (hdir : fs.root.entryAt place = some .dir) : fs.root.entryAt fs.here = some .dir := by
  by_contra hnot
  rw [LeadsTo, startOf, hp] at h
  rw [(h.of_not_dir hnot).2] at hdir
  exact hnot hdir

theorem movesOf_absolute (hhere : ∀ m ∈ fs.here, Node.ValidName m) (hp : p.isAbsolute = false) :
    movesOf (fs.absolute p) = fs.here.map .name ++ movesOf p := by
  have hroot : movesOf (Path.ofRoot fs.here) = fs.here.map .name := by
    rw [movesOf_eq, Path.components_ofRoot hhere, List.filterMap_cons, List.filterMap_map]
    exact congrFun (List.filterMap_eq_map (f := Step.name)) fs.here
  rw [absolute, movesOf_join rfl hp, hroot]

/-- The absolute path of a directory leads where the path leads, if the system takes the names that
relative paths start from. -/
theorem leadsTo_absolute (hvalid : fs.root.Valid)
    (hhere : p.isAbsolute = false → fs.root.entryAt fs.here = some .dir)
    (hdir : fs.root.entryAt place = some .dir) :
    fs.LeadsTo true (fs.absolute p) place ↔ fs.LeadsTo true p place ∧
      (p.isAbsolute = false → ∀ m ∈ fs.here, m.length ≤ maxNameLength) := by
  cases hp : p.isAbsolute with
  | true =>
    have hsame : fs.absolute p = p := by rw [absolute, Path.join, if_pos hp]
    rw [hsame]
    simp
  | false =>
    obtain ⟨es, hget⟩ := Node.entryAt_eq_dir.1 (hhere hp)
    have hmoves := movesOf_absolute (Node.validName_of_get? hvalid hget) hp
    have hsteps : (fs.here.map Step.name ++ stepsOf p).filter Step.moves =
        fs.here.map Step.name ++ movesOf p := by
      rw [List.filter_append, movesOf, List.filter_eq_self.2]
      simp [Step.moves]
    have hstart : fs.startOf (fs.absolute p) = [] := by
      rw [startOf, absolute, isAbsolute_join rfl hp]
      rfl
    have halong := @Leads.along_dirs fs.root true maxLinks [] place fs.here (stepsOf p) (hhere hp)
    have hrelative : fs.startOf p = fs.here := by simp [startOf, hp]
    rw [LeadsTo, LeadsTo, hstart, hrelative, forall_prop_of_true rfl]
    refine Iff.trans ⟨fun h => h.respell hdir ?_, fun h => h.respell hdir ?_⟩ halong
    · exact hsteps.trans hmoves.symm
    · exact hmoves.trans hsteps.symm

/-! ## When a write succeeds -/

/-- The system takes the absolute path of the temporary file. -/
structure TakesTemporary (fs : FileSystem) (target : Path) : Prop where
  short : ((fs.absolute (temporaryDir target)).join ⟨temporaryName 0⟩).isTooLong = false
  admissible : admissible (fs.absolute (temporaryDir target)) = .ok ()
  names : target.isAbsolute = false → ∀ m ∈ fs.here, m.length ≤ maxNameLength

theorem TakesTemporary.of_here (h : fs.TakesTemporary target) (hhere : after.here = fs.here) :
    after.TakesTemporary target := by
  have hsame : after.absolute (temporaryDir target) = fs.absolute (temporaryDir target) := by
    rw [absolute, absolute, hhere]
  exact ⟨hsame ▸ h.short, hsame ▸ h.admissible, hhere ▸ h.names⟩

theorem admissible_parent (hp : admissible p = .ok ()) (hq : p.parent? = some q)
    (hne : q.isEmpty = false) : admissible q = .ok () := by
  obtain ⟨hnul, -, hshort⟩ := admissible_eq_ok.1 hp
  have hfront := Path.octets_parent hq
  refine admissible_eq_ok.2 ⟨fun h => hnul (hfront.subset h), hne, ?_⟩
  have hlength := hfront.length_le
  simp only [Path.isTooLong, decide_eq_false_iff_not, Nat.not_lt] at hshort ⊢
  omega

/-- A path that ends with a slash asks for a directory in its last step. -/
theorem trimSlashes_of_last (h : (stepsOf p).getLast? = some (.name n)) :
    trimSlashes p = (p, false) := by
  obtain ⟨o⟩ := p
  rcases List.eq_nil_or_concat' o with rfl | ⟨front, b, rfl⟩
  · rfl
  · by_cases hb : b = Path.slash
    · rw [hb, stepsOf, Path.pieces_append] at h
      simp [Path.pieces, Step.ofPiece] at h
    · simp [trimSlashes, hb]

theorem findDir_ok {steps : List Step} {es : List (Name × Node)}
    (h : Leads fs.root true anyPlace maxLinks (fs.startOf p) steps place)
    (hget : fs.root.get? place = some (.dir es)) : fs.findDir p steps = .ok (place, es) := by
  rw [findDir, h.resolveFrom_eq]
  simp only [hget]

namespace NamesEntry

theorem ensureParent_eq (h : fs.NamesEntry p place n) : fs.ensureParent p = (fs, none) := by
  have hleads := h.leadsTo_temporaryDir
  unfold ensureParent
  unfold temporaryDir at hleads
  cases hparent : p.parent? with
  | none => rfl
  | some q =>
    rw [hparent] at hleads
    cases hempty : q.isEmpty with
    | true => simp only [hempty, if_true]
    | false =>
      simp only [hempty, Bool.false_eq_true, if_false] at hleads ⊢
      obtain ⟨es, hget⟩ := Node.entryAt_eq_dir.1 h.dir
      have hfind : fs.find true q = .ok (place, .dir es) :=
        find_eq_ok.2 ⟨locate_eq_ok.2 ⟨admissible_parent h.admissible hparent hempty, hleads⟩, hget⟩
      have hholds : fs.holds q = true := by rw [holds, hfind]; rfl
      have hisDir : fs.isDirectory q = true := by rw [isDirectory, hfind]; rfl
      rw [if_pos hholds, if_pos hisDir]

theorem moveFile_eq {source : List Name} {temporary : Name}
    (h : fs.NamesEntry target place n) (hold : fs.root.entryAt (place ++ [n]) ≠ some .dir) :
    fs.moveFile source temporary content target =
      .ok ((fs.editDir source (Node.eraseEntry temporary)).editDir place
        (Node.setEntry n (.file content))) := by
  obtain ⟨es, hget⟩ := Node.entryAt_eq_dir.1 h.dir
  rw [Node.entryAt_concat hget] at hold
  unfold moveFile
  rw [h.admissible, trimSlashes_of_last h.last]
  simp only [findDir_ok h.leads hget, h.last, if_neg (Nat.not_lt.2 h.short), Bool.false_eq_true,
    if_false]
  split
  · rename_i hlook
    exact absurd (by rw [hlook]; rfl) hold
  · rfl

theorem safeWrite_eq (hvalid : fs.root.Valid) (h : fs.NamesEntry target place n)
    (hold : fs.root.entryAt (place ++ [n]) ≠ some .dir) (htakes : fs.TakesTemporary target)
    (content : Octets) :
    fs.safeWrite target content =
      (fs.editDir place (Node.setEntry n (.file content)), none) := by
  have hdir := h.leadsTo_temporaryDir
  have habsolute := (temporaryDir_of_last h.last).2
  obtain ⟨es, hget⟩ := Node.entryAt_eq_dir.1 h.dir
  obtain ⟨temporary, hfresh⟩ := exists_freshTemporary es
  have hleads : fs.LeadsTo true (fs.absolute (temporaryDir target)) place :=
    (leadsTo_absolute hvalid (fun hp => dir_here hp hdir h.dir) h.dir).2
      ⟨hdir, fun hp => htakes.names (habsolute ▸ hp)⟩
  have hfind := find_eq_ok.2 ⟨locate_eq_ok.2 ⟨htakes.admissible, hleads⟩, hget⟩
  refine safeWrite_ok h.ensureParent_eq htakes.short hfind hfresh ?_
  -- The target names its entry in front of the temporary file, too.
  have hnew := freshTemporary?_fresh hfresh
  obtain ⟨hplaced, hsame⟩ := placed_temporary hget hnew content
  have hnames : (fs.editDir place (Node.setEntry temporary (.file content))).NamesEntry target
      place n := h.of_alike rfl (hplaced.alike fun t ht => by
    rw [Node.entryAt_concat hget, hnew] at ht
    cases ht)
  rw [hnames.moveFile_eq, editDir_temporary hget hnew]
  by_cases hn : place ++ [n] = place ++ [temporary]
  · rw [hn]
    exact fun hd => by cases hplaced.now.symm.trans hd
  · exact fun hd => hold ((hsame _ hn).symm.trans hd)

end NamesEntry

theorem find_of_createTemporary {dir : Path} {written : FileSystem} {source : List Name}
    {temporary : Name} (h : fs.createTemporary dir content = .ok (written, source, temporary)) :
    ((fs.absolute dir).join ⟨temporaryName 0⟩).isTooLong = false ∧
      ∃ es, fs.find true (fs.absolute dir) = .ok (source, .dir es) := by
  unfold createTemporary at h
  simp only at h
  split at h
  · cases h
  · rename_i hshort
    split at h
    · cases h
    · rename_i hfind
      split at h
      · cases h
      · cases h
        exact ⟨by simpa using hshort, _, hfind⟩
    · cases h

theorem createTemporary_of_safeWrite (h : fs.safeWrite target content = (after, none)) :
    ∃ found, (fs.ensureParent target).1.createTemporary (temporaryDir target) content =
      .ok found := by
  unfold safeWrite at h
  split at h
  · cases h
  · rename_i made hparent
    simp only at h
    split at h
    · cases h
    · rename_i written source temporary htemporary
      rw [hparent]
      exact ⟨_, htemporary⟩

/-- A write succeeds only if the system takes the temporary path. -/
theorem takesTemporary_of_safeWrite (hvalid : fs.root.Valid)
    (h : fs.safeWrite target content = (after, none)) :
    (fs.ensureParent target).1.TakesTemporary target := by
  obtain ⟨place, n, hput⟩ := safeWrite_eq_ok h
  obtain ⟨⟨written, source, temporary⟩, htemporary⟩ := createTemporary_of_safeWrite h
  obtain ⟨hshort, es, hfind⟩ := find_of_createTemporary htemporary
  obtain ⟨hlocate, hget⟩ := find_eq_ok.1 hfind
  obtain ⟨hadmissible, hleads⟩ := locate_eq_ok.1 hlocate
  have hdir := hput.names.leadsTo_temporaryDir
  have habsolute := (temporaryDir_of_last hput.names.last).2
  have hnames := (leadsTo_absolute (hput.paved.toGrewTo.valid hvalid)
    (fun hp => dir_here hp hdir hput.names.dir) (Node.entryAt_eq_dir.2 ⟨es, hget⟩)).1 hleads
  exact ⟨hshort, hadmissible, fun hp => hnames.2 (habsolute.trans hp)⟩

end FileSystem
end RefManifest
