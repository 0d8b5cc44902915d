import RefManifest.Proofs.Disk.Paving

/-!
# RefManifest.Proofs.Disk.Write

What a safe write does to the file system.

Everything that happens before the move only makes directories (`ensureParent_paved`), and the
temporary file leaves no trace, since it is new when it is made (`freshTemporary?_fresh`). So a
write that fails leaves what it has made so far (`safeWrite_eq_error`), and a write that succeeds
puts one file at the entry that the target names (`safeWrite_eq_ok`). `Put` says this, `Put.read`
what the target reads as afterwards, and `Wrote` what is left of it for the tree and for paths.
-/

namespace RefManifest
namespace FileSystem

open Text Disk

/-- The file system `after` is `fs` with the content at `out`, which is what `target` names now if
it names anything. -/
structure Wrote (fs after : FileSystem) (target : Path) (out : List Name) (content : Octets) :
    Prop where
  here : after.here = fs.here
  tree : Placed fs.root after.root out content
  valid : fs.root.Valid → after.root.Valid
  admissible : admissible target = .ok ()
  only : ∀ q, after.LeadsTo true target q → q = out
  reached : (∀ t, fs.root.entryAt out ≠ some (.link t)) → after.LeadsTo true target out

/-- The file system `after` is `fs` with new directories above the target, which gives `made`, and
then the content at the entry `n` of the directory at `place`, which is what the target names. -/
structure Put (fs made after : FileSystem) (target : Path) (place : List Name) (n : Name)
    (content : Octets) : Prop where
  paved : fs.Paved made (Path.Above · target)
  names : made.NamesEntry target place n
  notDir : made.root.entryAt (place ++ [n]) ≠ some .dir
  eq : after = made.editDir place (Node.setEntry n (.file content))

/-- The way of the target runs through `out` itself: with the content there, which is no directory,
its steps end before the last one, whatever directories are made besides. -/
def Blocked (made : FileSystem) (target : Path) (out : List Name) (content : Octets) : Prop :=
  ∀ y, Placed made.root y out content → ∀ b, b ≠ [] →
    resolveFrom y true anyPlace maxLinks (made.startOf target) ((stepsOf target).dropLast ++ b) =
      .error .notDirectory

variable {fs made after : FileSystem} {p target : Path} {content : Octets}

theorem freshTemporary?_fresh {es : List (Name × Node)} {n : Name}
    (h : freshTemporary? es = some n) : es.lookup n = none := by
  have := List.find?_some h
  simpa using this

theorem createTemporary_eq_ok {dir : Path} {written : FileSystem} {source : List Name}
    {temporary : Name} (h : fs.createTemporary dir content = .ok (written, source, temporary)) :
    ∃ es, fs.root.get? source = some (.dir es) ∧ es.lookup temporary = none ∧
      written = fs.editDir source (Node.setEntry temporary (.file content)) := by
  unfold createTemporary at h
  simp only at h
  split at h
  · cases h
  · split at h
    · cases h
    · rename_i place es hfind
      split at h
      · cases h
      · rename_i n hfresh
        cases h
        exact ⟨es, (find_eq_ok.1 hfind).2, freshTemporary?_fresh hfresh, rfl⟩
    · cases h

theorem createTemporary_ok {dir : Path} {source : List Name} {es : List (Name × Node)}
    {temporary : Name}
    (hshort : ((fs.absolute dir).join ⟨temporaryName 0⟩).isTooLong = false)
    (hfind : fs.find true (fs.absolute dir) = .ok (source, .dir es))
    (hfresh : freshTemporary? es = some temporary) (content : Octets) :
    fs.createTemporary dir content =
      .ok (fs.editDir source (Node.setEntry temporary (.file content)), source, temporary) := by
  unfold createTemporary
  simp only
  rw [hshort, hfind]
  simp only [Bool.false_eq_true, if_false, hfresh]

/-- Removing the temporary file leaves what was there before it. -/
theorem editDir_temporary {source : List Name} {temporary : Name} {es : List (Name × Node)}
    (hget : fs.root.get? source = some (.dir es)) (hfresh : es.lookup temporary = none)
    (x : Node) :
    (fs.editDir source (Node.setEntry temporary x)).editDir source (Node.eraseEntry temporary) =
      fs := by
  simp only [editDir, Node.editDir_eraseEntry_setEntry hget hfresh]

theorem placed_temporary {source : List Name} {temporary : Name} {es : List (Name × Node)}
    (hget : fs.root.get? source = some (.dir es)) (hfresh : es.lookup temporary = none)
    (content : Octets) :
    let y := fs.root.editDir (Node.setEntry temporary (.file content)) source
    Placed fs.root y (source ++ [temporary]) content ∧
      ∀ q, q ≠ source ++ [temporary] → y.entryAt q = fs.root.entryAt q := by
  have hdir := Node.entryAt_eq_dir.2 ⟨es, hget⟩
  have hold : fs.root.entryAt (source ++ [temporary]) ≠ some .dir := by
    rw [Node.entryAt_concat hget, hfresh]
    simp
  refine ⟨.of_setEntry hdir hold content, fun q hq => ?_⟩
  rw [Node.entryAt_setEntry hdir hold (Node.isBare_file content), if_neg hq]

theorem leads_of_temporary {source place start : List Name} {temporary : Name}
    {es : List (Name × Node)} {links : Nat} {pending : List Step}
    (hget : fs.root.get? source = some (.dir es)) (hfresh : es.lookup temporary = none)
    (hleads : Leads (fs.root.editDir (Node.setEntry temporary (.file content)) source) true
      anyPlace links start pending place)
    (hdir : (fs.root.editDir (Node.setEntry temporary (.file content)) source).entryAt place =
      some .dir) :
    Leads fs.root true anyPlace links start pending place ∧
      fs.root.entryAt place = some .dir := by
  obtain ⟨hplaced, hsame⟩ := placed_temporary hget hfresh content
  have hne : place ≠ source ++ [temporary] := by
    rintro rfl
    rw [hplaced.now] at hdir
    cases hdir
  refine ⟨(hleads.back hplaced.now fun q e hq he => ?_).resolve_right hne, ?_⟩
  · rw [← hsame q hq]
    exact he
  · rw [← hsame place hne]
    exact hdir

theorem trimSlashes_of_not_slashed (h : (trimSlashes p).2 = false) : (trimSlashes p).1 = p := by
  simp only [trimSlashes, bne_eq_false_iff_eq, List.length_reverse] at h ⊢
  have hsuffix : p.octets.reverse.dropWhile (fun b => b == Path.slash) <:+ p.octets.reverse :=
    List.dropWhile_suffix _
  have heq := hsuffix.eq_of_length (by simpa using h)
  rw [heq, List.reverse_reverse]

theorem moveFile_eq_ok {source : List Name} {temporary : Name}
    (h : fs.moveFile source temporary content target = .ok after) :
    ∃ place n, fs.NamesEntry target place n ∧ fs.root.entryAt (place ++ [n]) ≠ some .dir ∧
      after = (fs.editDir source (Node.eraseEntry temporary)).editDir place
        (Node.setEntry n (.file content)) := by
  unfold moveFile at h
  cases hadm : Disk.admissible target with
  | error f =>
    rw [hadm] at h
    cases f <;> cases h
  | ok u =>
    rw [hadm] at h
    simp only at h
    cases hfind : fs.findDir target (stepsOf (trimSlashes target).1).dropLast with
    | error f => rw [hfind] at h; cases h
    | ok found =>
      obtain ⟨place, es⟩ := found
      rw [hfind] at h
      simp only at h
      obtain ⟨hleads, hget⟩ := findDir_eq_ok hfind
      split at h
      · rename_i n hlast
        split at h
        · cases h
        · rename_i hlen
          split at h
          · cases h
          · rename_i hslashed
            have hbare := trimSlashes_of_not_slashed (by simpa using hslashed)
            rw [hbare] at hlast hleads
            have hdir := Node.entryAt_eq_dir.2 ⟨es, hget⟩
            split at h
            · cases h
            · rename_i hold
              cases h
              refine ⟨place, n, ⟨hadm, by omega, hlast, hleads, hdir⟩, ?_, rfl⟩
              rw [Node.entryAt_concat hget]
              intro e
              obtain ⟨x, hx, hxdir⟩ := Option.map_eq_some_iff.1 e
              cases x with
              | file c => cases hxdir
              | link t => cases hxdir
              | dir es' => exact hold es' hx
      · cases h

/-- A write that fails leaves nothing behind but the directories that it has made. -/
theorem safeWrite_eq_error {fault : WriteFault}
    (h : fs.safeWrite target content = (after, some fault)) :
    after = (fs.ensureParent target).1 := by
  unfold safeWrite at h
  split at h
  · rename_i made f hparent
    cases h
    rw [hparent]
  · rename_i made hparent
    simp only at h
    split at h
    · cases h
      rw [hparent]
    · rename_i written source temporary htemp
      obtain ⟨es, hget, hfresh, rfl⟩ := createTemporary_eq_ok htemp
      split at h
      · cases h
      · cases h
        rw [hparent, editDir_temporary hget hfresh]

/-- A write that succeeds makes directories and then puts the content at the entry that the target
names. -/
theorem safeWrite_eq_ok (h : fs.safeWrite target content = (after, none)) :
    ∃ place n, fs.Put (fs.ensureParent target).1 after target place n content := by
  have hpaved := ensureParent_paved fs target
  unfold safeWrite at h
  split at h
  · cases h
  · rename_i made hparent
    rw [hparent] at hpaved ⊢
    simp only at h hpaved ⊢
    split at h
    · cases h
    · rename_i written source temporary htemp
      obtain ⟨es, hget, hfresh, rfl⟩ := createTemporary_eq_ok htemp
      split at h
      · rename_i moved hmove
        cases h
        obtain ⟨place, n, hnames, hold, rfl⟩ := moveFile_eq_ok hmove
        obtain ⟨hleads, hdir⟩ := leads_of_temporary hget hfresh hnames.leads hnames.dir
        refine ⟨place, n, hpaved, ⟨hnames.admissible, hnames.short, hnames.last, hleads, hdir⟩,
          fun hd => hold ?_, ?_⟩
        · exact (placed_temporary hget hfresh content).1.dir_kept hd
        · rw [editDir_temporary hget hfresh]
      · cases h

theorem safeWrite_ok {source : List Name} {es : List (Name × Node)} {temporary : Name}
    (hparent : fs.ensureParent target = (made, none))
    (hshort : ((made.absolute (temporaryDir target)).join ⟨temporaryName 0⟩).isTooLong = false)
    (hfind : made.find true (made.absolute (temporaryDir target)) = .ok (source, .dir es))
    (hfresh : freshTemporary? es = some temporary)
    (hmove : (made.editDir source (Node.setEntry temporary (.file content))).moveFile source
      temporary content target = .ok after) : fs.safeWrite target content = (after, none) := by
  rw [safeWrite, hparent]
  simp only
  rw [createTemporary_ok hshort hfind hfresh]
  simp only
  rw [hmove]

namespace Put

variable {place : List Name} {n : Name}

theorem entryAt (h : fs.Put made after target place n content) (q : List Name) :
    after.root.entryAt q =
      if q = place ++ [n] then some (.file content) else made.root.entryAt q := by
  rw [h.eq]
  exact Node.entryAt_setEntry h.names.dir h.notDir (Node.isBare_file content) q

theorem now (h : fs.Put made after target place n content) :
    after.root.entryAt (place ++ [n]) = some (.file content) :=
  (h.entryAt _).trans (if_pos rfl)

theorem frame (h : fs.Put made after target place n content) {q : List Name}
    (hq : q ≠ place ++ [n]) : after.root.entryAt q = made.root.entryAt q :=
  (h.entryAt q).trans (if_neg hq)

theorem placed_made (h : fs.Put made after target place n content) :
    Placed made.root after.root (place ++ [n]) content := by
  rw [h.eq]
  exact Placed.of_setEntry h.names.dir h.notDir content

theorem placed (h : fs.Put made after target place n content) :
    Placed fs.root after.root (place ++ [n]) content :=
  h.paved.toGrewTo.tree.placed h.placed_made

theorem here (h : fs.Put made after target place n content) : after.here = made.here := by
  rw [h.eq]
  rfl

theorem leadsTo (h : fs.Put made after target place n content)
    (hlink : ∀ t, fs.root.entryAt (place ++ [n]) ≠ some (.link t)) :
    after.LeadsTo true target (place ++ [n]) := by
  have hnolink : ∀ t, made.root.entryAt (place ++ [n]) ≠ some (.link t) := by
    intro t ht
    cases hfs : fs.root.entryAt (place ++ [n]) with
    | none => cases h.paved.toGrewTo.tree.fresh _ _ hfs ht
    | some e =>
      rw [h.paved.toGrewTo.tree.kept _ _ hfs] at ht
      cases ht
      exact hlink t hfs
  exact (h.names.of_alike h.here (h.placed_made.alike hnolink)).leadsTo h.now (by simp)

/-- The content is at one place, everything else is as before but for new directories, and the
target leads there if it leads anywhere. -/
theorem wrote (h : fs.Put made after target place n content) :
    fs.Wrote after target (place ++ [n]) content where
  here := h.here.trans h.paved.toGrewTo.here
  tree := h.placed
  valid := by
    intro hv
    rw [h.eq]
    exact Node.valid_setEntry (h.paved.toGrewTo.valid hv) h.names.validName (by simp [Node.Valid])
  admissible := h.names.admissible
  only := by
    intro q hq
    rw [LeadsTo, h.names.steps_eq, startOf_eq h.here] at hq
    -- Up to the last step the target leads to its directory as before, or to the file already.
    obtain ⟨left, mid, hmid, hlast⟩ := hq.split (by simp)
    rcases h.names.leads.agree h.placed_made hmid with rfl | rfl
    · exact hlast.ends_at_file h.now rfl
    · refine (hlast.of_not_dir fun hdir => ?_).2
      cases h.now.symm.trans hdir
  reached := h.leadsTo

/-- The target names the entry as before, unless its own way ran through a link that the content
has replaced. -/
theorem names_or_blocked (h : fs.Put made after target place n content) :
    after.NamesEntry target place n ∨
      (∃ t, fs.root.entryAt (place ++ [n]) = some (.link t)) ∧
        made.Blocked target (place ++ [n]) content := by
  have hnames := h.names
  rcases hnames.leads.placed_or_blocked (place ++ [n]) content with hleads | hblocked
  · have hway := hleads _ h.placed_made
    rw [← startOf_eq h.here] at hway
    exact .inl ⟨hnames.admissible, hnames.short, hnames.last, hway,
      h.placed_made.dir_kept hnames.dir⟩
  · refine .inr ⟨?_, hblocked⟩
    -- Without a link in its place the target would lead to the content.
    by_contra hlink
    have hleads := (h.leadsTo fun t ht => hlink ⟨t, ht⟩).resolveFrom_eq
    rw [startOf_eq h.here, hnames.steps_eq, hblocked _ h.placed_made _ (by simp)] at hleads
    cases hleads

theorem read_of_names (h : fs.Put made after target place n content)
    (hnames : after.NamesEntry target place n) : after.read target = .ok content := by
  refine read_eq_ok.2 ⟨_, locate_eq_ok.2 ⟨hnames.admissible, ?_⟩, h.now⟩
  exact hnames.leadsTo h.now (by simp)

theorem read_of_blocked (h : fs.Put made after target place n content)
    (hblocked : made.Blocked target (place ++ [n]) content) :
    after.read target = .error .notDirectory := by
  have hlocate : after.locate true target = .error .notDirectory := by
    rw [locate, h.names.admissible, h.names.steps_eq, startOf_eq h.here]
    exact hblocked _ h.placed_made _ (by simp)
  rw [FileSystem.read, find, hlocate]

/-- The target reads as the content that was written, unless its own way ran through a link that
the content has replaced. -/
theorem read (h : fs.Put made after target place n content) :
    after.read target = .ok content ∨
      (∃ t, fs.root.entryAt (place ++ [n]) = some (.link t)) ∧
        after.read target = .error .notDirectory :=
  h.names_or_blocked.imp h.read_of_names fun hblocked =>
    ⟨hblocked.1, h.read_of_blocked hblocked.2⟩

end Put

theorem safeWrite_wrote (h : fs.safeWrite target content = (after, none)) :
    ∃ out, fs.Wrote after target out content := by
  obtain ⟨place, n, hput⟩ := safeWrite_eq_ok h
  exact ⟨place ++ [n], hput.wrote⟩

/-! ## Paths after the write -/

namespace Wrote

variable {out place place' : List Name}

theorem startOf_eq (h : fs.Wrote after target out content) (p : Path) :
    after.startOf p = fs.startOf p := FileSystem.startOf_eq h.here p

theorem entry_kept (h : fs.Wrote after target out content) {q : List Name}
    (hq : fs.root.entryAt q ≠ none) : after.root.entryAt q ≠ none := by
  by_cases hne : q = out
  · rw [hne, h.tree.now]
    simp
  · obtain ⟨e, he⟩ := Option.ne_none_iff_exists'.1 hq
    rw [h.tree.kept q e hne he]
    simp

theorem canonical?_agree (h : fs.Wrote after target out content)
    (hplace : fs.canonical? p = some place) (hplace' : after.canonical? p = some place') :
    place' = place ∨ place' = out := by
  have hleads := (canonical?_eq_some.1 hplace).2.1
  have hleads' := (canonical?_eq_some.1 hplace').2.1
  rw [NamesPlace, h.startOf_eq] at hleads'
  exact Leads.agree h.tree hleads hleads'

theorem canonical?_kept (h : fs.Wrote after target out content)
    (hlink : ∀ t, fs.root.entryAt out ≠ some (.link t)) (hplace : fs.canonical? p = some place) :
    after.canonical? p = some place := by
  obtain ⟨hp, hleads, hentry⟩ := canonical?_eq_some.1 hplace
  refine canonical?_eq_some.2 ⟨hp, ?_, h.entry_kept hentry⟩
  rw [NamesPlace, h.startOf_eq]
  exact Leads.placed h.tree hlink hleads

theorem locate_kept (h : fs.Wrote after target out content)
    (hlink : ∀ t, fs.root.entryAt out ≠ some (.link t)) (hplace : fs.locate true p = .ok place) :
    after.locate true p = .ok place := by
  obtain ⟨hp, hleads⟩ := locate_eq_ok.1 hplace
  refine locate_eq_ok.2 ⟨hp, ?_⟩
  rw [LeadsTo, h.startOf_eq]
  exact Leads.placed h.tree hlink hleads

/-- Unless a directory was made, nothing is new but what was written. -/
theorem entry_back (h : fs.Wrote after target out content)
    (hdirs : ∀ q, after.root.entryAt q = some .dir → fs.root.entryAt q = some .dir) {q : List Name}
    {e : Entry} (hne : q ≠ out) (he : after.root.entryAt q = some e) :
    fs.root.entryAt q = some e := by
  cases hold : fs.root.entryAt q with
  | none =>
    cases h.tree.fresh q e hne hold he
    rw [hdirs q he] at hold
    cases hold
  | some e' =>
    rw [h.tree.kept q e' hne hold] at he
    exact he

/-- Unless a directory was made, a path that leads somewhere led there before, or leads to the
place that was written. -/
theorem canonical?_back (h : fs.Wrote after target out content)
    (hdirs : ∀ q, after.root.entryAt q = some .dir → fs.root.entryAt q = some .dir)
    (hplace : after.canonical? p = some place) : fs.canonical? p = some place ∨ place = out := by
  obtain ⟨hp, hleads, hentry⟩ := canonical?_eq_some.1 hplace
  rw [NamesPlace, h.startOf_eq] at hleads
  rcases Leads.back h.tree.now (fun q e => h.entry_back hdirs) hleads with hback | rfl
  · by_cases hne : place = out
    · exact .inr hne
    · obtain ⟨e, he⟩ := Option.ne_none_iff_exists'.1 hentry
      exact .inl (canonical?_eq_some.2 ⟨hp, hback, by rw [h.entry_back hdirs hne he]; simp⟩)
  · exact .inr rfl

theorem canonical?_back_of_file (h : fs.Wrote after target out content) {c : Octets}
    (hdirs : ∀ q, after.root.entryAt q = some .dir → fs.root.entryAt q = some .dir)
    (hfile : fs.root.entryAt out = some (.file c)) (hplace : after.canonical? p = some place) :
    fs.canonical? p = some place := by
  obtain ⟨hp, hleads, hentry⟩ := canonical?_eq_some.1 hplace
  have halike : ∀ q e, after.root.entryAt q = some e →
      ∃ e', fs.root.entryAt q = some e' ∧ e.Alike e' := by
    intro q e he
    by_cases hne : q = out
    · rw [hne, h.tree.now] at he
      cases he
      exact ⟨_, hne ▸ hfile, .inr ⟨content, c, rfl, rfl⟩⟩
    · exact ⟨e, h.entry_back hdirs hne he, .inl rfl⟩
  rw [NamesPlace, h.startOf_eq] at hleads
  obtain ⟨e, he⟩ := Option.ne_none_iff_exists'.1 hentry
  obtain ⟨e', he', -⟩ := halike place e he
  exact canonical?_eq_some.2 ⟨hp, Leads.of_alike halike hleads, by rw [he']; simp⟩

end Wrote

end FileSystem
end RefManifest
