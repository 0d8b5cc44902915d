import RefManifest.Proofs.Disk.Paving
import RefManifest.Proofs.Parent

/-!
# RefManifest.Proofs.Disk.Spelling

Different spellings of one path.

Two slashes in a row and a dot between slashes are steps that stand still, and the components of a
path leave them out. So the moves of a path, which are its other steps, are those of its components
(`movesOf_eq`), and where a path to a directory leads depends on its moves only (`Leads.respell`).

A path that can be read has moves, and so a parent (`exists_parent_of_read`).

A name joined to a path is one more move (`movesOf_join`). So the parent of the joined path leads
where the path led (`parent_join`), however the path was spelled.
-/

namespace RefManifest

open Text

namespace Path

theorem pieces_ne_nil (o : Octets) : pieces o ≠ [] := by
  cases o with
  | nil => simp [pieces]
  | cons b rest =>
    unfold pieces
    split
    · simp
    · cases pieces rest <;> simp [consPiece]

theorem consPiece_append {b : UInt8} {l : List Octets} (h : l ≠ []) (l' : List Octets) :
    consPiece b (l ++ l') = consPiece b l ++ l' := by
  obtain ⟨x, xs, rfl⟩ := List.exists_cons_of_ne_nil h
  rfl

theorem pieces_append (a b : Octets) : pieces (a ++ slash :: b) = pieces a ++ pieces b := by
  induction a with
  | nil => simp [pieces]
  | cons c a ih =>
    by_cases hc : c = slash
    · simp [pieces, hc, ih]
    · simp [pieces, hc, ih, consPiece_append (pieces_ne_nil a)]

/-- The move that a component stands for. A root and a leading dot say where a path starts. -/
def Component.move? : Component → Option Disk.Step
  | .root => none
  | .here => none
  | .up => some .up
  | .name n => some (.name n)

/-- A path is absolute if its components start at the root. -/
theorem isAbsolute_iff (p : Path) : p.isAbsolute = true ↔ p.components.head? = some .root := by
  have hpieces : ∀ ps : List Octets, (ps.filterMap ofPiece).head? ≠ some .root := by
    intro ps h
    obtain ⟨x, -, hx⟩ := List.mem_filterMap.1 (List.mem_of_head? h)
    exact ofPiece_ne_root x hx
  rw [components_eq, opening]
  by_cases habs : p.isAbsolute
  · simp [habs]
  · by_cases hhere : (pieces p.octets).head? = some [dot]
    · simp [habs, hhere]
    · simpa [habs, hhere] using hpieces _

end Path

namespace Disk

open RefManifest.Path

variable {p q : Path} {n : Name}

/-- The step goes somewhere else. -/
def Step.moves (s : Step) : Bool := s != .here

/-- The steps of the path that go somewhere else. -/
def movesOf (p : Path) : List Step := (stepsOf p).filter Step.moves

theorem movesOf_eq (p : Path) : movesOf p = p.components.filterMap Component.move? := by
  have hpieces : ∀ ps : List Octets, (ps.map Step.ofPiece).filter Step.moves =
      (ps.filterMap ofPiece).filterMap Component.move? := by
    intro ps
    induction ps with
    | nil => rfl
    | cons x xs ih =>
      rw [List.map_cons, List.filterMap_cons]
      by_cases hstand : x = [] ∨ x = [dot]
      · simpa [Step.ofPiece, ofPiece, hstand, Step.moves] using ih
      · by_cases hup : x = [dot, dot]
        · simp [Step.ofPiece, ofPiece, hup, dot, List.filter_cons, Step.moves, Component.move?,
            ← ih]
        · simp [Step.ofPiece, ofPiece, hstand, hup, List.filter_cons, Step.moves, Component.move?,
            ← ih]
  have hopening : p.opening.filterMap Component.move? = [] := by
    rw [opening]
    split
    · rfl
    · split <;> rfl
  rw [movesOf, stepsOf, hpieces, components_eq, List.filterMap_append, hopening, List.nil_append]

/-- Paths with the same components have the same moves, and start at the same place. -/
theorem movesOf_congr (h : q.components = p.components) : movesOf q = movesOf p := by
  rw [movesOf_eq, movesOf_eq, h]

theorem isAbsolute_congr (h : q.components = p.components) : q.isAbsolute = p.isAbsolute := by
  rw [Bool.eq_iff_iff, isAbsolute_iff, isAbsolute_iff, h]

theorem isAbsolute_name (hn : slash ∉ n) : isAbsolute ⟨n⟩ = false := by
  rw [isAbsolute, beq_eq_false_iff_ne]
  exact fun h => hn (List.mem_of_head? h)

theorem octets_ne_nil (hp : p.isEmpty = false) : p.octets ≠ [] := by
  intro h
  rw [Path.isEmpty, h] at hp
  cases hp

/-- The pieces of a path with a relative path behind it: a slash at the end of the first is not
doubled. -/
theorem pieces_join (hp : p.isEmpty = false) (hq : q.isAbsolute = false) :
    ∃ front, front ≠ [] ∧ pieces (p.join q).octets = front ++ pieces q.octets ∧
      (pieces p.octets = front ∨ pieces p.octets = front ++ [[]]) := by
  have hne := octets_ne_nil hp
  have hlast := List.getLast?_eq_getLast_of_ne_nil hne
  rw [join, hq, hlast]
  simp only [Bool.false_eq_true, if_false]
  have hsplit := List.dropLast_append_getLast hne
  split
  · rename_i hslash
    rw [hslash] at hsplit
    refine ⟨pieces p.octets.dropLast, pieces_ne_nil _, ?_, .inr ?_⟩
    · rw [← pieces_append]
      exact congrArg pieces (by rw [← hsplit]; simp)
    · rw [← hsplit, pieces_append]
      simp [pieces]
  · exact ⟨pieces p.octets, pieces_ne_nil _, pieces_append _ _, .inl rfl⟩

theorem isAbsolute_join (hp : p.isEmpty = false) (hq : q.isAbsolute = false) :
    (p.join q).isAbsolute = p.isAbsolute := by
  obtain ⟨b, rest, hoctets⟩ := List.exists_cons_of_ne_nil (octets_ne_nil hp)
  rw [join, hq, isAbsolute, isAbsolute]
  simp only [Bool.false_eq_true, if_false]
  cases hlast : p.octets.getLast? with
  | none => simp [hoctets] at hlast
  | some c =>
    simp only
    split <;> simp [hoctets]

theorem movesOf_join (hp : p.isEmpty = false) (hq : q.isAbsolute = false) :
    movesOf (p.join q) = movesOf p ++ movesOf q := by
  obtain ⟨front, -, hjoin, hfront⟩ := pieces_join hp hq
  simp only [movesOf, stepsOf, hjoin, List.map_append, List.filter_append]
  rcases hfront with h | h <;> rw [h]
  simp [Step.ofPiece, Step.moves]

theorem pieces_join_name (hp : p.isEmpty = false) (hn : slash ∉ n) :
    ∃ front, front ≠ [] ∧ pieces (p.join ⟨n⟩).octets = front ++ [n] ∧
      (pieces p.octets = front ∨ pieces p.octets = front ++ [[]]) := by
  have hjoin := pieces_join hp (isAbsolute_name hn)
  rwa [pieces_of_slash_not_mem hn] at hjoin

theorem components_join (hp : p.isEmpty = false) (hn : Node.ValidName n) :
    (p.join ⟨n⟩).components = p.components ++ [.name n] := by
  obtain ⟨front, hne, hjoin, hfront⟩ := pieces_join_name hp hn.2.2.2.1
  have hhead : (front ++ [n]).head? = (pieces p.octets).head? := by
    obtain ⟨x, xs, rfl⟩ := List.exists_cons_of_ne_nil hne
    rcases hfront with h | h <;> rw [h] <;> rfl
  have hopening : (p.join ⟨n⟩).opening = p.opening := by
    rw [opening, opening, isAbsolute_join hp (isAbsolute_name hn.2.2.2.1), hjoin, hhead]
  have hcomponents : (pieces p.octets).filterMap ofPiece = front.filterMap ofPiece := by
    rcases hfront with h | h <;> rw [h]
    simp [ofPiece]
  rw [components_eq, components_eq, hopening, hjoin, hcomponents, List.filterMap_append,
    List.append_assoc]
  simp [ofPiece_of_validName hn]

theorem mem_join {b : UInt8} (hn : slash ∉ n) (h : b ∈ (p.join ⟨n⟩).octets) :
    b ∈ p.octets ∨ b = slash ∨ b ∈ n := by
  rw [join, isAbsolute_name hn] at h
  simp only [Bool.false_eq_true, if_false] at h
  split at h
  · exact .inr (.inr h)
  · split at h
    · simp only [List.mem_append] at h
      exact h.imp_right .inr
    · simpa using h

/-- The parent of the joined path is a spelling of the path. -/
theorem parent_join (hp : p.isEmpty = false) (hn : Node.ValidName n) :
    ∃ q, (p.join ⟨n⟩).parent? = some q ∧ q.components = p.components := by
  have hcomponents := components_join hp hn
  cases hparent : (p.join ⟨n⟩).parent? with
  | none => rcases parent?_eq_none hparent with h | h <;> simp [hcomponents] at h
  | some q => exact ⟨q, rfl, by rw [components_parent hparent, hcomponents, List.dropLast_concat]⟩

/-- The last step of the joined path goes to the name, and the moves before it are those of the
path. -/
theorem stepsOf_join (hp : p.isEmpty = false) (hn : Node.ValidName n) :
    ∃ front, stepsOf (p.join ⟨n⟩) = front ++ [.name n] ∧ front.filter Step.moves = movesOf p := by
  obtain ⟨front, -, hjoin, hfront⟩ := pieces_join_name hp hn.2.2.2.1
  have hname : Step.ofPiece n = .name n := by simp [Step.ofPiece, hn.1, hn.2.1, hn.2.2.1]
  have hsteps : stepsOf (p.join ⟨n⟩) = front.map Step.ofPiece ++ [.name n] := by
    rw [stepsOf, hjoin, List.map_append, List.map_singleton, hname]
  refine ⟨front.map Step.ofPiece, hsteps, ?_⟩
  rw [movesOf, stepsOf]
  rcases hfront with h | h <;> rw [h]
  simp [Step.ofPiece, Step.moves]

/-! ## Where a path leads -/

namespace Leads

variable {root : Node} {fits : List Name → Bool} {links : Nat} {start place : List Name}
  {a b rest : List Step}

theorem stand (hdir : root.entryAt start = some .dir) (hb : ∀ s ∈ b, s.moves = false)
    (h : Leads root true fits links start rest place) :
    Leads root true fits links start (b ++ rest) place := by
  induction b with
  | nil => exact h
  | cons s b ih =>
    obtain ⟨hs, hb⟩ := List.forall_mem_cons.1 hb
    have hhere : s = .here := by simpa [Step.moves] using hs
    rw [List.cons_append, hhere]
    exact .here hdir (ih hb)

theorem respell (h : Leads root true fits links start a place)
    (hdir : root.entryAt place = some .dir) (hmoves : b.filter Step.moves = a.filter Step.moves) :
    Leads root true fits links start b place := by
  have hstill : ∀ {front : List Step}, (∀ s ∈ front, ¬ s.moves = true) →
      ∀ s ∈ front, s.moves = false := fun h s hs => by simpa using h s hs
  induction h generalizing b with
  | @done links start =>
    have hall := List.filter_eq_nil_iff.1 hmoves
    have hstand := stand hdir (hstill hall) (@Leads.done root true fits links start)
    rwa [List.append_nil] at hstand
  | here _ _ ih => exact ih hdir hmoves
  | up hhere _ ih =>
    obtain ⟨front, rest', rfl, hfront, -, hrest⟩ := List.filter_eq_cons_iff.1 hmoves
    exact stand hhere (hstill hfront) (.up hhere (ih hdir hrest))
  | enter hhere hlen hfit hentry hlink _ ih =>
    obtain ⟨front, rest', rfl, hfront, -, hrest⟩ := List.filter_eq_cons_iff.1 hmoves
    exact stand hhere (hstill hfront) (.enter hhere hlen hfit hentry hlink (ih hdir hrest))
  | stop _ _ _ _ hfollow => cases hfollow
  | jump hhere hlen hfit hentry _ _ ih =>
    obtain ⟨front, rest', rfl, hfront, -, hrest⟩ := List.filter_eq_cons_iff.1 hmoves
    -- The steps of the link come first in both.
    refine stand hhere (hstill hfront) (.jump hhere hlen hfit hentry (fun _ => rfl) (ih hdir ?_))
    rw [List.filter_append, List.filter_append, hrest]

end Leads
end Disk

namespace FileSystem

open Disk

variable {fs : FileSystem} {p q : Path} {n : Name} {place : List Name}

theorem LeadsTo.of_components (h : fs.LeadsTo true p place)
    (hdir : fs.root.entryAt place = some .dir) (hq : q.components = p.components) :
    fs.LeadsTo true q place := by
  rw [LeadsTo, startOf, isAbsolute_congr hq]
  exact Leads.respell h hdir (movesOf_congr hq)

theorem dir_of_still (h : fs.LeadsTo true p place) (hmoves : movesOf p = []) :
    fs.root.entryAt place = some .dir := by
  obtain ⟨piece, rest, hpieces⟩ := List.exists_cons_of_ne_nil (Path.pieces_ne_nil p.octets)
  have hsteps : stepsOf p = Step.ofPiece piece :: rest.map Step.ofPiece := by
    rw [stepsOf, hpieces, List.map_cons]
  have hhere : Step.ofPiece piece = .here := by
    have hstill := List.filter_eq_nil_iff.1 hmoves (Step.ofPiece piece) (by simp [hsteps])
    simpa [Step.moves] using hstill
  have hdir : fs.root.entryAt (fs.startOf p) = some .dir := by
    rw [LeadsTo, hsteps, hhere] at h
    cases h with
    | here hdir _ => exact hdir
  have hstay : Leads fs.root true anyPlace maxLinks (fs.startOf p) (stepsOf p) (fs.startOf p) :=
    Leads.respell .done hdir hmoves
  rwa [h.unique hstay]

/-- The path of a file that can be read has a parent. -/
theorem exists_parent_of_read {c : Octets} (h : fs.read p = .ok c) :
    ∃ dir, p.parent? = some dir := by
  cases hparent : p.parent? with
  | some dir => exact ⟨dir, rfl⟩
  | none =>
    have hmoves : movesOf p = [] := by
      rw [movesOf_eq]
      rcases Path.parent?_eq_none hparent with hnil | hroot
      · rw [hnil]
        rfl
      · rw [Path.components_of_root hroot]
        rfl
    obtain ⟨place, hlocate, hfile⟩ := read_eq_ok.1 h
    rw [dir_of_still (locate_eq_ok.1 hlocate).2 hmoves] at hfile
    cases hfile

theorem startOf_join (fs : FileSystem) (hp : p.isEmpty = false) (hn : Node.ValidName n) :
    fs.startOf (p.join ⟨n⟩) = fs.startOf p := by
  rw [startOf, startOf, isAbsolute_join hp (isAbsolute_name hn.2.2.2.1)]

section Join

variable (hp : fs.canonical? p = some place) (hdir : fs.root.entryAt place = some .dir)
  (hn : Node.ValidName n)
include hp hdir hn

/-- A name joined to the path of a directory leads to the entry of that name, if it is there and can
be named, and is no link. -/
theorem canonical?_join (hlen : n.length ≤ maxNameLength)
    (hlink : ∀ t, fs.root.entryAt (place ++ [n]) ≠ some (.link t)) (out : List Name) :
    fs.canonical? (p.join ⟨n⟩) = some out ↔
      out = place ++ [n] ∧ isNameable out = true ∧ fs.root.entryAt out ≠ none := by
  obtain ⟨⟨hnul, hempty⟩, hleads, -⟩ := canonical?_eq_some.1 hp
  obtain ⟨front, hsteps, hfront⟩ := stepsOf_join hempty hn
  have hway : Leads fs.root true isNameable maxLinks (fs.startOf p) front place :=
    Leads.respell hleads hdir hfront
  have hnonempty : (p.join ⟨n⟩).isEmpty = false :=
    isEmpty_of_mem_stepsOf
      (by rw [hsteps]; exact List.mem_append_right _ (List.mem_singleton_self _))
  rw [canonical?_eq_some, NamesPlace, startOf_join fs hempty hn, hsteps]
  constructor
  · rintro ⟨-, hout, hentry⟩
    obtain ⟨left, mid, hmid, hlast⟩ := hout.split (by simp)
    cases hway.unique hmid
    cases hlast with
    | enter _ _ hfit _ _ hdone =>
      cases hdone
      exact ⟨rfl, hfit, hentry⟩
    | stop _ _ _ _ hfollow => cases hfollow
    | jump _ _ _ ht _ _ => exact absurd ht (hlink _)
  · rintro ⟨rfl, hfit, hentry⟩
    obtain ⟨e, he⟩ := Option.ne_none_iff_exists'.1 hentry
    refine ⟨⟨fun h => ?_, hnonempty⟩, ?_, hentry⟩
    · rcases mem_join hn.2.2.2.1 h with h | h | h
      · exact hnul h
      · cases h
      · exact hn.2.2.2.2 h
    · refine hway.append (by simp) fun left => .enter hdir hlen hfit he ?_ .done
      rintro t rfl
      exact hlink t he

theorem leadsTo_join (hlen : n.length ≤ maxNameLength) {e : Entry}
    (he : fs.root.entryAt (place ++ [n]) = some e) (hlink : ∀ t, e ≠ .link t) :
    fs.LeadsTo true (p.join ⟨n⟩) (place ++ [n]) := by
  obtain ⟨⟨-, hempty⟩, hleads, -⟩ := canonical?_eq_some.1 hp
  obtain ⟨front, hsteps, hfront⟩ := stepsOf_join hempty hn
  have hway : Leads fs.root true anyPlace maxLinks (fs.startOf p) front place :=
    Leads.respell hleads.leadsTo hdir hfront
  rw [LeadsTo, startOf_join fs hempty hn, hsteps]
  exact hway.append (by simp) fun left => .enter hdir hlen rfl he hlink .done

/-- The joined path names the entry of that name in the directory, and no other. -/
theorem NamesEntry.eq_of_join {place' : List Name} {m : Name}
    (h : fs.NamesEntry (p.join ⟨n⟩) place' m) : place' = place ∧ m = n := by
  obtain ⟨⟨-, hempty⟩, hleads, -⟩ := canonical?_eq_some.1 hp
  obtain ⟨front, hsteps, hfront⟩ := stepsOf_join hempty hn
  have hlast := h.last
  have hway := h.leads
  rw [hsteps, List.getLast?_concat] at hlast
  rw [hsteps, List.dropLast_concat, startOf_join fs hempty hn] at hway
  cases hlast
  exact ⟨hway.unique (Leads.respell hleads.leadsTo hdir hfront), rfl⟩

theorem ensureParent_join : (fs.ensureParent (p.join ⟨n⟩)).1 = fs := by
  obtain ⟨⟨-, hempty⟩, hleads, -⟩ := canonical?_eq_some.1 hp
  obtain ⟨q, hparent, hq⟩ := parent_join hempty hn
  exact ensureParent_of_dir hparent (hleads.leadsTo.of_components hdir hq) hdir

end Join
end FileSystem
end RefManifest
