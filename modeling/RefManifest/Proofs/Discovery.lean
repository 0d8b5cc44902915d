import RefManifest.Discovery
import RefManifest.Proofs.Disk.Leads
import RefManifest.Proofs.Disk.Steps
import RefManifest.Proofs.Disk.Walk

/-!
# RefManifest.Proofs.Discovery

Which templates are found below a place.

A template is a regular file below the place that is neither skipped nor excluded (`IsTemplate`).
Discovery succeeds exactly if every directory on the way can be opened by its absolute path, and
then it lists the templates in the order of their names (`discover_eq_ok`). The list is determined
by its members, so two trees with the same templates have the same list (`Listed.unique`).
-/

namespace RefManifest

open Text Disk

namespace FileSystem

variable {fs : FileSystem} {place q : List Name} {follow : Bool}

/-- The absolute path of the place can be handed to the system. -/
def Openable (place : List Name) : Prop :=
  admissible (Path.ofRoot place) = .ok () ∧ ∀ n ∈ place, n.length ≤ maxNameLength

/-- The absolute path of a directory leads there, if the system takes it. -/
theorem locate_ofRoot (hnames : ∀ n ∈ place, Node.ValidName n)
    (hdir : fs.root.entryAt place = some .dir) :
    fs.locate follow (Path.ofRoot place) = .ok q ↔ Openable place ∧ q = place := by
  have hstart : fs.startOf (Path.ofRoot place) = [] := by
    simp [startOf, Path.isAbsolute, Path.ofRoot]
  have halong : ∀ {links q}, Leads fs.root follow anyPlace links [] (place.map .name) q ↔
      q = place ∧ ∀ n ∈ place, n.length ≤ maxNameLength := by
    intro links q
    rw [← List.append_nil (place.map Step.name)]
    exact (Leads.along_dirs hdir).trans (and_congr_left fun _ => Leads.nil_iff)
  have hroot : fs.root.entryAt [] = some .dir := Node.dir_of_dir_below hdir
  rw [locate_eq_ok, LeadsTo, hstart, stepsOf_ofRoot hnames, Openable, and_assoc]
  refine and_congr_right fun _ => ?_
  -- The root alone is spelled with two empty pieces, any other place with one in front.
  by_cases hne : place = []
  · subst hne
    simp only [if_true, List.not_mem_nil, false_implies, implies_true, true_and]
    constructor
    · intro h
      cases h with
      | here _ h =>
        cases h with
        | here _ h =>
          cases h
          rfl
    · rintro rfl
      exact .here hroot (.here hroot .done)
  · rw [if_neg hne, and_comm, ← halong]
    constructor
    · intro h
      cases h with
      | here _ h => exact h
    · exact .here hroot

end FileSystem

/-- The file is a template below `place`: it is there, not skipped and not excluded. -/
structure IsTemplate (x : Node) (place : List Name) (excludes : Excludes)
    (skips : List (List Name)) (t : Template) : Prop where
  file : x.entryAt (place ++ t.names) = some (.file t.content)
  kept : place ++ t.names ∉ skips
  wanted : excludes.excludes t.path = false

/-- The list holds the templates below `place` in the order of their names. -/
structure Listed (x : Node) (place : List Name) (excludes : Excludes) (skips : List (List Name))
    (ts : List Template) : Prop where
  ordered : ts.Pairwise fun a b => a.names < b.names
  mem : ∀ t, t ∈ ts ↔ IsTemplate x place excludes skips t

/-- Every directory at or below `place` can be opened by its absolute path. -/
structure Walkable (x : Node) (place : List Name) : Prop where
  start : FileSystem.Openable place
  below : ∀ names, x.entryAt (place ++ names) = some .dir → isNameable (place ++ names) = true

theorem Listed.unique {x y : Node} {place place' : List Name} {excludes excludes' : Excludes}
    {skips skips' : List (List Name)} {ts ts' : List Template}
    (h : Listed x place excludes skips ts) (h' : Listed y place' excludes' skips' ts')
    (hsame : ∀ t, IsTemplate x place excludes skips t ↔ IsTemplate y place' excludes' skips' t) :
    ts = ts' :=
  Node.eq_of_sorted Template.names h.ordered h'.ordered fun t => by rw [h.mem, h'.mem, hsame]

namespace Discovery

/-- The node as a template, if it is a regular file. -/
def fileOf? : List Name × Node → Option Template
  | (names, .file content) => some ⟨names, content⟩
  | _ => none

theorem fileOf?_eq_some {e : List Name × Node} {t : Template} :
    fileOf? e = some t ↔ e = (t.names, .file t.content) := by
  obtain ⟨names, x⟩ := e
  obtain ⟨names', content⟩ := t
  cases x <;> simp [fileOf?]

theorem gather_snd (base : Path) (l : List (List Name × Node)) :
    (gather base l).2 = none ↔
      ∀ e ∈ l, e.2.entry = .dir → (base.below e.1).isTooLong = false := by
  induction l with
  | nil => simp [gather]
  | cons e l ih =>
    obtain ⟨names, x⟩ := e
    cases x with
    | file c => simp [gather, ih, Node.entry]
    | link t => simp [gather, ih, Node.entry]
    | dir es => cases hlong : (base.below names).isTooLong <;> simp [gather, ih, Node.entry, hlong]

theorem gather_fst {base : Path} {l : List (List Name × Node)} (h : (gather base l).2 = none) :
    (gather base l).1 = l.filterMap fileOf? := by
  induction l with
  | nil => rfl
  | cons e l ih =>
    obtain ⟨names, x⟩ := e
    rw [gather_snd] at h
    have hrest := ih ((gather_snd base l).2 fun e he => h e (List.mem_cons_of_mem _ he))
    cases x with
    | file c => simp [gather, fileOf?, hrest]
    | link t => simp [gather, fileOf?, hrest, List.filterMap_cons]
    | dir es =>
      have hshort : (base.below names).isTooLong = false := h _ (List.mem_cons_self ..) rfl
      simp [gather, fileOf?, hrest, hshort, List.filterMap_cons]

theorem mem_filterMap_fileOf? {x : Node} (hx : x.Valid) (t : Template) :
    t ∈ x.walk.filterMap fileOf? ↔ x.entryAt t.names = some (.file t.content) := by
  rw [List.mem_filterMap, Node.entryAt_eq_file, ← Node.mem_walk hx]
  simp only [fileOf?_eq_some, exists_eq_right]

theorem filterMap_fileOf?_pairwise {x : Node} (hx : x.Valid) :
    (x.walk.filterMap fileOf?).Pairwise fun s t => s.names < t.names := by
  rw [List.pairwise_filterMap]
  refine (Node.walk_pairwise x hx).imp fun {a b} hab s hs t ht => ?_
  rw [fileOf?_eq_some] at hs ht
  rw [hs, ht] at hab
  exact hab

/-! ## The walk from a place -/

section Place

variable {fs : FileSystem} {place : List Name} {es : List (Name × Node)} {excludes : Excludes}
  {skips : List (List Name)}

theorem pathFrom_ofRoot (hx : fs.root.Valid) {t : Template} {e : Entry}
    (h : fs.root.entryAt (place ++ t.names) = some e) :
    t.pathFrom (Path.ofRoot place) = Path.ofRoot (place ++ t.names) := by
  obtain ⟨y, hy, -⟩ := Option.map_eq_some_iff.1 h
  have hnames := Node.validName_of_get? hx hy
  exact Path.below_ofRoot (fun n hn => hnames n (List.mem_append_left _ hn))
    fun n hn => hnames n (List.mem_append_right _ hn)

/-- The walk is over the nodes below the place, if the place itself can be opened. -/
theorem walk_of_openable (hx : fs.root.Valid) (hget : fs.root.get? place = some (.dir es))
    (h : FileSystem.Openable place) :
    walk fs (Path.ofRoot place) = gather (Path.ofRoot place) (Node.dir es).walk := by
  have hloc : fs.locate false (Path.ofRoot place) = .ok place :=
    (FileSystem.locate_ofRoot (Node.validName_of_get? hx hget)
      (Node.entryAt_eq_dir.2 ⟨es, hget⟩)).2 ⟨h, rfl⟩
  rw [walk, FileSystem.find_eq_ok.2 ⟨hloc, hget⟩]

theorem openable_of_walk (hx : fs.root.Valid) (hget : fs.root.get? place = some (.dir es))
    (h : (walk fs (Path.ofRoot place)).2 = none) : FileSystem.Openable place := by
  unfold walk at h
  cases hfind : fs.find false (Path.ofRoot place) with
  | error f => rw [hfind] at h; cases h
  | ok found =>
    obtain ⟨hloc, -⟩ := FileSystem.find_eq_ok.1 hfind
    exact ((FileSystem.locate_ofRoot (Node.validName_of_get? hx hget)
      (Node.entryAt_eq_dir.2 ⟨es, hget⟩)).1 hloc).1

theorem walk_snd (hx : fs.root.Valid) (hget : fs.root.get? place = some (.dir es)) :
    (walk fs (Path.ofRoot place)).2 = none ↔ Walkable fs.root place := by
  have hvalid := Node.valid_of_get? hx hget
  have hshort : ∀ names es', (Node.dir es).get? names = some (.dir es') →
      ((Path.ofRoot place).below names).isTooLong = !isNameable (place ++ names) := by
    intro names es' hnames
    have hbelow := Path.below_ofRoot (Node.validName_of_get? hx hget)
      (Node.validName_of_get? hvalid hnames)
    rw [hbelow, isNameable, Bool.not_not]
  constructor
  · intro h
    have hopen := openable_of_walk hx hget h
    rw [walk_of_openable hx hget hopen, gather_snd] at h
    refine ⟨hopen, fun names hdir => ?_⟩
    obtain ⟨es', hes'⟩ := Node.entryAt_eq_dir.1 hdir
    rw [Node.get?_append, hget, Option.bind_some] at hes'
    have hlong := h (names, .dir es') ((Node.mem_walk hvalid).2 hes') rfl
    rw [hshort names es' hes'] at hlong
    simpa using hlong
  · intro h
    rw [walk_of_openable hx hget h.start, gather_snd]
    rintro ⟨names, y⟩ hmem hdir
    have hy := (Node.mem_walk hvalid).1 hmem
    cases y with
    | file c => cases hdir
    | link t => cases hdir
    | dir es' =>
      have hbelow : fs.root.entryAt (place ++ names) = some .dir := by
        rw [Node.entryAt_eq_dir]
        exact ⟨es', by rw [Node.get?_append, hget, Option.bind_some, hy]⟩
      simp [hshort names es' hy, h.below names hbelow]

theorem walk_fst (hx : fs.root.Valid) (hget : fs.root.get? place = some (.dir es))
    (h : Walkable fs.root place) :
    (walk fs (Path.ofRoot place)).1 = (Node.dir es).walk.filterMap fileOf? := by
  have hnone := (walk_snd hx hget).2 h
  rw [walk_of_openable hx hget h.start] at hnone ⊢
  exact gather_fst hnone

theorem rejection?_eq_none (hx : fs.root.Valid) {t : Template} {e : Entry}
    (hentry : fs.root.entryAt (place ++ t.names) = some e)
    (hskips : ∀ q ∈ skips, ∀ n ∈ q, Node.ValidName n) :
    rejection? (Path.ofRoot place) excludes (skips.map Path.ofRoot) t = none ↔
      place ++ t.names ∉ skips ∧ excludes.excludes t.path = false := by
  obtain ⟨y, hy, -⟩ := Option.map_eq_some_iff.1 hentry
  have hnames := Node.validName_of_get? hx hy
  have hskip : ((skips.map Path.ofRoot).any fun skip =>
      skip.same (t.pathFrom (Path.ofRoot place))) = true ↔ place ++ t.names ∈ skips := by
    rw [pathFrom_ofRoot hx hentry, List.any_map, List.any_eq_true]
    constructor
    · rintro ⟨q, hq, hsame⟩
      rw [Function.comp_apply, Path.same_ofRoot (hskips q hq) hnames] at hsame
      exact hsame ▸ hq
    · intro hmem
      exact ⟨_, hmem, (Path.same_ofRoot hnames hnames).2 rfl⟩
  unfold rejection?
  by_cases hmem : place ++ t.names ∈ skips
  · rw [if_pos (hskip.2 hmem)]
    simp [hmem]
  · rw [if_neg fun e => hmem (hskip.1 e)]
    cases hex : excludes.excludes t.path <;> simp [hmem]

theorem entryAt_below (hget : fs.root.get? place = some (.dir es)) (names : List Name) :
    (Node.dir es).entryAt names = fs.root.entryAt (place ++ names) := by
  rw [Node.entryAt, Node.entryAt, Node.get?_append, hget, Option.bind_some]

theorem listed_walk (hx : fs.root.Valid) (hget : fs.root.get? place = some (.dir es))
    (hskips : ∀ q ∈ skips, ∀ n ∈ q, Node.ValidName n) :
    Listed fs.root place excludes skips
      (((Node.dir es).walk.filterMap fileOf?).filter fun t =>
        (rejection? (Path.ofRoot place) excludes (skips.map Path.ofRoot) t).isNone) := by
  have hvalid := Node.valid_of_get? hx hget
  refine ⟨(filterMap_fileOf?_pairwise hvalid).filter _, fun t => ?_⟩
  rw [List.mem_filter, mem_filterMap_fileOf? hvalid, entryAt_below hget,
    Option.isNone_iff_eq_none]
  constructor
  · rintro ⟨hfile, hnone⟩
    obtain ⟨hkept, hwanted⟩ := (rejection?_eq_none hx hfile hskips).1 hnone
    exact ⟨hfile, hkept, hwanted⟩
  · rintro ⟨hfile, hkept, hwanted⟩
    exact ⟨hfile, (rejection?_eq_none hx hfile hskips).2 ⟨hkept, hwanted⟩⟩

/-- Discovery succeeds exactly if every directory at or below the place can be opened, and
lists the templates in the order of their names. -/
theorem discover_eq_ok (hx : fs.root.Valid) (hdir : fs.root.entryAt place = some .dir)
    (hskips : ∀ q ∈ skips, ∀ n ∈ q, Node.ValidName n) {ts : List Template} :
    (discover fs (Path.ofRoot place) excludes (skips.map Path.ofRoot)).result = .ok ts ↔
      Walkable fs.root place ∧ Listed fs.root place excludes skips ts := by
  obtain ⟨es, hget⟩ := Node.entryAt_eq_dir.1 hdir
  have hlisted := @listed_walk fs place es excludes skips hx hget hskips
  have hfst := walk_fst hx hget
  have hsnd := walk_snd hx hget
  unfold discover
  cases hwalk : walk fs (Path.ofRoot place) with
  | mk found failure =>
    rw [hwalk] at hfst hsnd
    cases failure with
    | some f =>
      simp only [reduceCtorEq, false_iff, not_and]
      exact fun hwalkable => absurd (hsnd.2 hwalkable) (by simp)
    | none =>
      have hwalkable := hsnd.1 rfl
      have hfound : found = (Node.dir es).walk.filterMap fileOf? := hfst hwalkable
      simp only [Except.ok.injEq, hfound]
      constructor
      · rintro rfl
        exact ⟨hwalkable, hlisted⟩
      · rintro ⟨-, hts⟩
        exact hlisted.unique hts fun _ => Iff.rfl

end Place
end Discovery
end RefManifest
