import RefManifest.Proofs.Reports

/-!
# RefManifest.Proofs.Relocation

A generation does not tell where its reference directory is.

Two runs are compared whose reference directories have the same name and hold the same, on any two
disks (`Relocated`). Both find the same templates, and both read, name and file each of them alike,
because the place of the directory enters the names through its last component only. One thing does
depend on the place: directories and templates are opened by their absolute paths, so a run is cut
short where such a path is longer than the system takes (`CutShort`). Unless that happens to one of
the two runs, they have the same result and the same reports (`generate_relocated`).
-/

namespace RefManifest
namespace Generation

open Text Disk Notice Hierarchy

variable {fs fs' : FileSystem} {s s' : Settings} {place place' : List Name} {ts : List Template}
  {t : Template}

/-- Two runs in the same circumstances, up to where their directories are. The directories have the
same name and the same below them, and the settings ask the same of both; the skip paths lead to
the same files below them. -/
structure Relocated (fs : FileSystem) (s : Settings) (place : List Name) (fs' : FileSystem)
    (s' : Settings) (place' : List Name) : Prop where
  located : locate fs s.referenceDir = .ok place
  located' : locate fs' s'.referenceDir = .ok place'
  sameName : place'.getLast? = place.getLast?
  sameTree : ∀ names, fs'.root.entryAt (place' ++ names) = fs.root.entryAt (place ++ names)
  sameExcludes : s'.excludes = s.excludes
  sameFormat : s'.format = s.format
  sameMode : s'.exitOnError = s.exitOnError
  sameSkips : ∀ names c, fs.root.entryAt (place ++ names) = some (.file c) →
    (place' ++ names ∈ skipPlaces fs' s'.skipPaths ↔ place ++ names ∈ skipPlaces fs s.skipPaths)

/-- Some directory or regular file at or below `place` cannot be opened by its absolute path. -/
def OutOfReach (x : Node) (place : List Name) : Prop :=
  ∃ names e, x.entryAt (place ++ names) = some e ∧ (∀ target, e ≠ .link target) ∧
    ¬ FileSystem.Openable (place ++ names)

theorem not_openable_of_long (h : isNameable place = false) : ¬ FileSystem.Openable place := by
  rintro ⟨hadmissible, -⟩
  rw [isNameable, Bool.not_eq_false'] at h
  unfold admissible at hadmissible
  rw [h] at hadmissible
  split at hadmissible
  · cases hadmissible
  split at hadmissible
  · cases hadmissible
  cases hadmissible

theorem outOfReach_of_not_walkable {x : Node} (hdir : x.entryAt place = some .dir)
    (h : ¬ Walkable x place) : OutOfReach x place := by
  by_contra hreach
  simp only [OutOfReach, not_exists, not_and, not_not] at hreach
  refine h ⟨?_, fun names hbelow => ?_⟩
  · have hstart := hreach [] .dir
    rw [List.append_nil] at hstart
    exact hstart hdir fun _ e => nomatch e
  · have hopen := hreach names .dir hbelow fun _ e => nomatch e
    by_contra hlong
    rw [Bool.not_eq_true] at hlong
    exact not_openable_of_long hlong hopen

theorem outOfReach_of_not_readable (hx : fs.root.Valid)
    (hfile : fs.root.entryAt (place ++ t.names) = some (.file t.content))
    (h : ¬ Readable place t) : OutOfReach fs.root place := by
  refine ⟨t.names, _, hfile, fun _ e => (nomatch e), not_openable_of_long ?_⟩
  rw [Readable, Discovery.pathFrom_ofRoot hx hfile, Bool.not_eq_false] at h
  rw [isNameable, h, Bool.not_true]

/-- The run fails because something at or below the directory cannot be opened by its absolute
path. -/
structure CutShort (fs : FileSystem) (s : Settings) (place : List Name) : Prop where
  reason : OutOfReach fs.root place
  fails : ∃ path reason, (generate fs s).result = .error (.directoryWalk path reason) ∨
    (generate fs s).result = .error (.templateRead path reason)

theorem directoryWalk_of_not_walkable (hx : fs.root.Valid)
    (hlocated : locate fs s.referenceDir = .ok place) (h : ¬ Walkable fs.root place) :
    ∃ path reason, (generate fs s).result = .error (.directoryWalk path reason) := by
  obtain ⟨-, hdir⟩ := locate_eq_ok.1 hlocated
  have hfails : ∀ ts, (Discovery.discover fs (Path.ofRoot place) s.excludes
      (canonicalSkips fs s.skipPaths)).result ≠ .ok ts := fun ts hts =>
    h ((Discovery.discover_eq_ok hx hdir (validName_of_skipPlaces hx)).1 hts).1
  unfold generate
  simp only [hlocated]
  cases hfound : Discovery.discover fs (Path.ofRoot place) s.excludes
      (canonicalSkips fs s.skipPaths) with
  | mk ns result =>
    cases result with
    | ok ts => exact absurd (by rw [hfound]) (hfails ts)
    | error f =>
      obtain ⟨path, reason, rfl⟩ := discover_failure (by rw [hfound])
      exact ⟨path, reason, rfl⟩

theorem cutShort_of_not_walkable (hx : fs.root.Valid)
    (hlocated : locate fs s.referenceDir = .ok place) (h : ¬ Walkable fs.root place) :
    CutShort fs s place := by
  obtain ⟨path, reason, hfails⟩ := directoryWalk_of_not_walkable hx hlocated h
  exact ⟨outOfReach_of_not_walkable (locate_eq_ok.1 hlocated).2 h, path, reason, .inl hfails⟩

/-- A template that both runs can read is read and named alike. -/
theorem readRecord_relocated (hname : place'.getLast? = place.getLast?) (h : Readable place t)
    (h' : Readable place' t) : readRecord place' t = readRecord place t := by
  have hnames : namesOf place' t = namesOf place t := by rw [namesOf, namesOf, hname]
  cases hnamed : namesOf place t with
  | error f =>
    rw [readRecord_of_unnamed h hnamed, readRecord_of_unnamed h' (hnames.trans hnamed)]
  | ok names => rw [readRecord_of_named h hnamed, readRecord_of_named h' (hnames.trans hnamed)]

/-- The filing ends at a template that cannot be read. -/
def EndsUnread (place : List Name) (filed : Hierarchy) (ts : List Template) : Prop :=
  ∃ path reason, (fileAll place filed ts).result = .error (.templateRead path reason)

theorem endsUnread_of_head (h : ¬ Readable place t) (filed : Hierarchy) :
    EndsUnread place filed (t :: ts) := by
  have hresult : (readRecord place t).result =
      .error (readFailure (t.pathFrom (Path.ofRoot place))) := by
    rw [readRecord_of_not_readable h]
  exact ⟨_, _, by rw [fileAll_cons_error hresult, readFailure]⟩

/-- Both runs file the templates alike, unless one of them cannot read some template. The induction
goes along the templates: what the directory is called is all that a step sees of its place. -/
theorem fileAll_relocated (hname : place'.getLast? = place.getLast?) (ts : List Template)
    (filed : Hierarchy) :
    fileAll place' filed ts = fileAll place filed ts ∨ EndsUnread place filed ts ∨
      EndsUnread place' filed ts := by
  induction ts generalizing filed with
  | nil => exact .inl rfl
  | cons t ts ih =>
    by_cases hread : Readable place t
    swap
    · exact .inr (.inl (endsUnread_of_head hread filed))
    by_cases hread' : Readable place' t
    swap
    · exact .inr (.inr (endsUnread_of_head hread' filed))
    have hsame := readRecord_relocated hname hread hread'
    cases hresult : (readRecord place t).result with
    | error f =>
      have hresult' := hresult
      rw [← hsame] at hresult'
      rw [fileAll_cons_error hresult, fileAll_cons_error hresult', hsame]
      exact .inl rfl
    | ok r =>
      have hresult' := hresult
      rw [← hsame] at hresult'
      simp only [EndsUnread, fileAll_cons_ok hresult, fileAll_cons_ok hresult', hsame]
      cases hadd : filed.add r with
      | mk next told =>
        obtain ⟨more, conflict⟩ := told
        cases conflict with
        | some f => exact .inl rfl
        | none =>
          exact (ih next).imp_left fun hrest => by simp only [hrest]

theorem build_relocated (hname : place'.getLast? = place.getLast?)
    (hmode : s'.exitOnError = s.exitOnError) (hformat : s'.format = s.format)
    (ts : List Template) :
    build s' place' ts = build s place ts ∨
      (∃ path reason, (build s place ts).result = .error (.templateRead path reason)) ∨
      ∃ path reason, (build s' place' ts).result = .error (.templateRead path reason) := by
  rcases fileAll_relocated hname ts (start s.exitOnError) with hfiled | ⟨path, reason, hfails⟩ |
    ⟨path, reason, hfails⟩
  · exact .inl (by simp only [build, hmode, hformat, hfiled])
  · exact .inr (.inl ⟨path, reason, by simp only [build, hfails]⟩)
  · exact .inr (.inr ⟨path, reason, by simp only [build, hmode, hfails]⟩)

theorem cutShort_of_templateRead (hx : fs.root.Valid) (hfound : Found fs s place ts)
    (hts : Templates fs s place ts)
    (h : ∃ path reason, (build s place ts).result = .error (.templateRead path reason)) :
    CutShort fs s place := by
  obtain ⟨path, reason, hfails⟩ := h
  refine ⟨?_, path, reason, .inr (by rw [generate_of_found hfound, Traced.after, hfails])⟩
  rcases build_error hfails with ⟨-, hstop⟩ | ⟨-, r, more, -, hconflict⟩
  · obtain ⟨front, t, back, rfl, -, hread⟩ := readings_eq_error (Prod.ext rfl hstop)
    have ht : t ∈ front ++ t :: back := List.mem_append_right _ (List.mem_cons_self ..)
    refine outOfReach_of_not_readable hx ((hts.mem t).1 ht).file fun hreadable => ?_
    cases hnames : namesOf place t with
    | error f =>
      rw [readRecord_of_unnamed hreadable hnames] at hread
      obtain ⟨_, _, _, rfl⟩ := namesOf_failure hnames
      cases hread
    | ok names =>
      rw [readRecord_of_named hreadable hnames] at hread
      cases hread
  · cases hconflict

namespace Relocated

variable (h : Relocated fs s place fs' s' place')

include h

theorem isTemplate_iff (t : Template) :
    IsTemplate fs'.root place' s'.excludes (skipPlaces fs' s'.skipPaths) t ↔
      IsTemplate fs.root place s.excludes (skipPlaces fs s.skipPaths) t := by
  rw [h.sameExcludes]
  constructor
  · rintro ⟨hfile, hkept, hwanted⟩
    rw [h.sameTree] at hfile
    exact ⟨hfile, fun hskip => hkept ((h.sameSkips _ _ hfile).2 hskip), hwanted⟩
  · rintro ⟨hfile, hkept, hwanted⟩
    refine ⟨by rw [h.sameTree]; exact hfile, fun hskip => hkept ?_, hwanted⟩
    exact (h.sameSkips _ _ hfile).1 hskip

theorem found (hx : fs.root.Valid) (hx' : fs'.root.Valid) (hwalkable : Walkable fs.root place)
    (hwalkable' : Walkable fs'.root place') :
    ∃ ts, Templates fs s place ts ∧ Templates fs' s' place' ts ∧ Found fs s place ts ∧
      Found fs' s' place' ts := by
  have hdir := (locate_eq_ok.1 h.located).2
  have hdir' := (locate_eq_ok.1 h.located').2
  obtain ⟨ts, hts⟩ := exists_templates hx s hdir
  obtain ⟨ts', hts'⟩ := exists_templates hx' s' hdir'
  cases hts'.unique hts h.isTemplate_iff
  exact ⟨ts, hts, hts', ⟨h.located, (Discovery.discover_eq_ok hx hdir
    (validName_of_skipPlaces hx)).2 ⟨hwalkable, hts⟩⟩, ⟨h.located', (Discovery.discover_eq_ok hx'
    hdir' (validName_of_skipPlaces hx')).2 ⟨hwalkable', hts'⟩⟩⟩

end Relocated

/-- Where a checkout stands does not matter. Two runs whose directories have the same name and hold
the same end alike and report the same: with the same manifest, text and count of errors, or with
the same template without a name or the same conflict. The only way out is that one of them cannot
open something below its directory, because the absolute path is longer than the system takes. -/
theorem generate_relocated (hx : fs.root.Valid) (hx' : fs'.root.Valid)
    (h : Relocated fs s place fs' s' place') :
    let run := generate fs s
    let run' := generate fs' s'
    (run'.result = run.result ∧ reports run'.notices = reports run.notices ∧
      ∀ f, run.result = .error f →
        (∃ path axis ancestor, f = .unresolvableName path axis ancestor) ∨
          ∃ part component, f = .conflictingStatus part component) ∨
    CutShort fs s place ∨ CutShort fs' s' place' := by
  intro run run'
  by_cases hwalkable : Walkable fs.root place
  swap
  · exact .inr (.inl (cutShort_of_not_walkable hx h.located hwalkable))
  by_cases hwalkable' : Walkable fs'.root place'
  swap
  · exact .inr (.inr (cutShort_of_not_walkable hx' h.located' hwalkable'))
  obtain ⟨ts, hts, hts', hfound, hfound'⟩ := h.found hx hx' hwalkable hwalkable'
  rcases build_relocated h.sameName h.sameMode h.sameFormat ts with hbuild | hunread | hunread
  swap
  · exact .inr (.inl (cutShort_of_templateRead hx hfound hts hunread))
  swap
  · exact .inr (.inr (cutShort_of_templateRead hx' hfound' hts' hunread))
  by_cases hunread : ∃ path reason, (build s place ts).result = .error (.templateRead path reason)
  · exact .inr (.inl (cutShort_of_templateRead hx hfound hts hunread))
  have hrun : run = _ := generate_of_found hfound
  have hrun' : run' = _ := generate_of_found hfound'
  rw [hrun, hrun', hbuild]
  refine .inl ⟨rfl, ?_, fun f hf => ?_⟩
  · rw [Traced.after, Traced.after, reports_append_of_quiet (reports_preamble ..),
      reports_append_of_quiet (reports_preamble ..)]
  · rcases reports_of_build_error hfound hf with ⟨⟨path, reason, rfl⟩ | hunnamed, -⟩ |
      ⟨t, r, rfl, -⟩
    · exact absurd ⟨path, reason, hf⟩ hunread
    · exact .inl hunnamed
    · exact .inr ⟨_, _, rfl⟩

/-! ## Checkouts of one tree -/

section Checkouts

/-- A template below a part and a component. -/
def sampleEntries : List (Name × Node) :=
  [(toOctets "storage-class", .dir [(toOctets "local", .dir [(toOctets "a", .file [])])])]

def sampleTemplate : Template := ⟨[toOctets "storage-class", toOctets "local", toOctets "a"], []⟩

/-- A directory below the start, and the same one reached through a link from beside it. -/
def belowDisk (es : List (Name × Node)) : FileSystem :=
  ⟨.dir [(toOctets "srv", .dir [(toOctets "ref", .dir es)])], [toOctets "srv"]⟩

def besideDisk (es : List (Name × Node)) : FileSystem :=
  ⟨.dir [(toOctets "ref", .dir es), (toOctets "a", .file []),
    (toOctets "ci", .dir [(toOctets "l", .link (Path.ofString "../ref"))])], [toOctets "ci"]⟩

/-- A run that skips the manifest of the directory. -/
def runIn (dir : String) : Settings :=
  ⟨Path.ofString dir, false, .yaml, ⟨[]⟩, [Path.ofString (dir ++ "/metadata.yml")]⟩

def manifestBeside : List (Name × Node) := (toOctets "metadata.yml", .file [1]) :: sampleEntries

theorem relocated_beside :
    Relocated (belowDisk manifestBeside) (runIn "ref") [toOctets "srv", toOctets "ref"]
      (besideDisk manifestBeside) (runIn "l") [toOctets "ref"] where
  located := rfl
  located' := rfl
  sameName := rfl
  sameTree _ := rfl
  sameExcludes := rfl
  sameFormat := rfl
  sameMode := rfl
  sameSkips := by
    have hskips : skipPlaces (belowDisk manifestBeside) (runIn "ref").skipPaths =
        [[toOctets "srv", toOctets "ref"] ++ [toOctets "metadata.yml"]] := by decide +kernel
    have hskips' : skipPlaces (besideDisk manifestBeside) (runIn "l").skipPaths =
        [[toOctets "ref"] ++ [toOctets "metadata.yml"]] := by decide +kernel
    intro names c _
    rw [hskips, hskips', List.mem_singleton, List.mem_singleton, List.append_cancel_left_eq,
      List.append_cancel_left_eq]

theorem generate_relocated_beside :
    (belowDisk manifestBeside).root.Valid ∧ (besideDisk manifestBeside).root.Valid ∧
    Relocated (belowDisk manifestBeside) (runIn "ref") [toOctets "srv", toOctets "ref"]
      (besideDisk manifestBeside) (runIn "l") [toOctets "ref"] ∧
    ∃ g, (generate (belowDisk manifestBeside) (runIn "ref")).result = .ok g ∧
      (generate (besideDisk manifestBeside) (runIn "l")).result = .ok g := by
  have hvalid : (belowDisk manifestBeside).root.Valid := by decide
  have hvalid' : (besideDisk manifestBeside).root.Valid := by decide
  have hrelocated := relocated_beside
  obtain ⟨g, hg⟩ := @exists_generated _ _ _ [sampleTemplate] hrelocated.located (by decide +kernel)
    (by decide +kernel)
  obtain ⟨g', hg'⟩ := @exists_generated _ _ _ [sampleTemplate] hrelocated.located' (by decide +kernel)
    (by decide +kernel)
  refine ⟨hvalid, hvalid', hrelocated, g, hg, ?_⟩
  rcases generate_relocated hvalid hvalid' hrelocated with ⟨hsame, -⟩ | hcut | hcut
  · rw [hsame, hg]
  · obtain ⟨path, reason, hfails⟩ := hcut.fails
    rw [hg] at hfails
    simp at hfails
  · obtain ⟨path, reason, hfails⟩ := hcut.fails
    rw [hg'] at hfails
    simp at hfails

/-- The tree in which `x` is at the place and nothing else is. -/
def planted (x : Node) : List Name → Node
  | [] => x
  | n :: rest => .dir [(n, planted x rest)]

theorem get?_planted (x : Node) (place names : List Name) :
    (planted x place).get? (place ++ names) = x.get? names := by
  induction place with
  | nil => rfl
  | cons n place ih => simp [planted, Node.get?, ih]

theorem valid_planted {x : Node} (hx : x.Valid) (h : ∀ n ∈ place, Node.ValidName n) :
    (planted x place).Valid := by
  induction place with
  | nil => exact hx
  | cons n place ih =>
    obtain ⟨hn, hrest⟩ := List.forall_mem_cons.1 h
    simp [planted, Node.Valid, Node.ValidEntries, hn, ih hrest]

/-- A run that is started in the reference directory. -/
def startedAt (place : List Name) : FileSystem := ⟨planted (.dir sampleEntries) place, place⟩

def runHere : Settings := ⟨Path.ofString ".", false, .yaml, ⟨[]⟩, []⟩

theorem locate_startedAt (place : List Name) :
    locate (startedAt place) runHere.referenceDir = .ok place := by
  have hget := get?_planted (.dir sampleEntries) place []
  rw [List.append_nil] at hget
  have hdir : (startedAt place).root.entryAt place = some .dir :=
    Node.entryAt_eq_dir.2 ⟨_, hget⟩
  have hsteps : stepsOf runHere.referenceDir = [.here] := by decide
  have hnames : (startedAt place).NamesPlace runHere.referenceDir place := by
    rw [FileSystem.NamesPlace, hsteps]
    exact .here hdir .done
  rw [locate_eq_ok, FileSystem.canonical?_eq_some]
  exact ⟨⟨by decide, hnames, by simp [hdir]⟩, hdir⟩

theorem relocated_startedAt (h : place'.getLast? = place.getLast?) :
    Relocated (startedAt place) runHere place (startedAt place') runHere place' where
  located := locate_startedAt place
  located' := locate_startedAt place'
  sameName := h
  sameTree names := by
    rw [Node.entryAt, Node.entryAt, startedAt, startedAt, get?_planted, get?_planted]
  sameExcludes := rfl
  sameFormat := rfl
  sameMode := rfl
  sameSkips _ _ _ := by simp [skipPlaces, runHere]

def shallowPlace : List Name := [toOctets "ref"]

/-- A place whose absolute path has 4084 octets. -/
def deepPlace : List Name := List.replicate 16 (List.replicate 254 0x6E) ++ [toOctets "ref"]

/-- The same tree at two places, in both of which a run can be started: from the deep one it cannot
list a directory that it lists from the other. -/
theorem deep_checkout_fails :
    (startedAt shallowPlace).root.Valid ∧ (startedAt deepPlace).root.Valid ∧
    Relocated (startedAt shallowPlace) runHere shallowPlace (startedAt deepPlace) runHere
      deepPlace ∧
    (∃ g, (generate (startedAt shallowPlace) runHere).result = .ok g) ∧
    ∃ path reason,
      (generate (startedAt deepPlace) runHere).result = .error (.directoryWalk path reason) := by
  have hvalid : (startedAt deepPlace).root.Valid := valid_planted (by decide) (by decide +kernel)
  have hshallow := @exists_generated _ _ _ [sampleTemplate] (locate_startedAt shallowPlace)
    (by decide +kernel) (by decide +kernel)
  refine ⟨valid_planted (by decide) (by decide), hvalid, relocated_startedAt rfl, hshallow, ?_⟩
  refine directoryWalk_of_not_walkable hvalid (locate_startedAt deepPlace) fun h => ?_
  have hdir : (startedAt deepPlace).root.entryAt (deepPlace ++ [toOctets "storage-class"]) =
      some .dir := by
    rw [startedAt, Node.entryAt, get?_planted]
    rfl
  have hlong : isNameable (deepPlace ++ [toOctets "storage-class"]) = false := by decide +kernel
  rw [h.below _ hdir] at hlong
  cases hlong

end Checkouts

end Generation
end RefManifest
