import RefManifest.Naming
import RefManifest.Proofs.Disk.Steps

/-!
# RefManifest.Proofs.Parent

The parent of a path is the path without its last component.

A parent keeps the spelling of the path up to the end of a component, slashes and dots included.
What has to be shown is that the octets up to there have the components up to there
(`spans_take`), whichever of the three ways the path starts in: with a slash, with a dot that is a
component, or otherwise (`Plain`). The names that are taken from a path are then its components
counted from the end, on every path: `ofDir?_parent`, `ofDir?_grandparent`.
-/

namespace RefManifest
namespace Path

open Text

variable {o x r : Octets} {start : Nat} {before after : List (Component × Nat)} {c : Component}
  {stop : Nat}

theorem pieces_cases (o : Octets) :
    (slash ∉ o ∧ pieces o = [o]) ∨
      ∃ x r, slash ∉ x ∧ o = x ++ slash :: r ∧ pieces o = x :: pieces r := by
  by_cases h : slash ∈ o
  · obtain ⟨x, r, rfl, hx⟩ := List.eq_append_cons_of_mem h
    exact .inr ⟨x, r, hx, rfl, pieces_append_slash hx r⟩
  · exact .inl ⟨h, pieces_of_slash_not_mem h⟩

theorem pieces_slash (r : Octets) : pieces (slash :: r) = [] :: pieces r :=
  pieces_append_slash List.not_mem_nil r

theorem pieces_dot_slash (r : Octets) : pieces (dot :: slash :: r) = [dot] :: pieces r :=
  @pieces_append_slash [dot] (by decide) r

theorem take_past_slash (x r : Octets) (n : Nat) :
    (x ++ slash :: r).take (x.length + 1 + n) = x ++ slash :: r.take n := by
  rw [Nat.add_assoc, List.take_length_add_append, Nat.add_comm 1 n, List.take_succ_cons]

theorem spansFrom_take (h : spansFrom start (pieces o) = before ++ (c, stop) :: after) :
    ∃ n, stop = start + n ∧ spansFrom start (pieces (o.take n)) = before ++ [(c, stop)] := by
  generalize hps : pieces o = ps at h
  induction ps generalizing o start before with
  | nil => simp [spansFrom] at h
  | cons x xs ih =>
    -- A component further on is a component of the rest, behind the slash.
    have hlater : ∀ {front}, spansFrom (start + x.length + 1) xs = front ++ (c, stop) :: after →
        ∃ n, stop = start + n ∧ ∃ r, pieces (o.take n) = x :: r ∧
          spansFrom (start + x.length + 1) r = front ++ [(c, stop)] := by
      intro front hxs
      rcases pieces_cases o with ⟨-, hone⟩ | ⟨y, r, hy, rfl, hmore⟩
      · rw [hone] at hps
        cases hps
        simp [spansFrom] at hxs
      · rw [hmore] at hps
        cases hps
        obtain ⟨n, rfl, htake⟩ := ih rfl hxs
        refine ⟨x.length + 1 + n, by omega, pieces (r.take n), ?_, htake⟩
        rw [take_past_slash, pieces_append_slash hy]
    rw [spansFrom] at h
    cases hpiece : ofPiece x with
    | none =>
      rw [hpiece] at h
      obtain ⟨n, hstop, r, hpieces, hspans⟩ := hlater h
      refine ⟨n, hstop, ?_⟩
      simp only [hpieces, spansFrom, hpiece, hspans]
    | some c' =>
      rw [hpiece] at h
      cases before with
      | nil =>
        cases h
        refine ⟨x.length, rfl, ?_⟩
        have hx : slash ∉ x := slash_not_mem_piece (by rw [hps]; exact List.mem_cons_self ..)
        have htake : o.take x.length = x := by
          rcases pieces_cases o with ⟨-, hone⟩ | ⟨y, r, hy, rfl, hmore⟩
          · rw [hone] at hps
            cases hps
            exact List.take_length
          · rw [hmore] at hps
            cases hps
            exact List.take_left
        simp only [htake, pieces_of_slash_not_mem hx, spansFrom, hpiece, List.nil_append]
      | cons e front =>
        simp only [List.cons_append, List.cons.injEq] at h
        obtain ⟨rfl, hxs⟩ := h
        obtain ⟨n, hstop, r, hpieces, hspans⟩ := hlater hxs
        refine ⟨n, hstop, ?_⟩
        simp only [hpieces, spansFrom, hpiece, hspans, List.cons_append]

/-- The octets start neither with a slash nor with a dot that is a component. -/
structure Plain (o : Octets) : Prop where
  not_root : ¬ [slash] <+: o
  not_dot : o ≠ [dot]
  not_here : ¬ [dot, slash] <+: o

theorem spans_slash (r : Octets) : spans ⟨slash :: r⟩ = (.root, 1) :: spansFrom 1 (pieces r) := by
  simp [spans, pieces, isAbsolute]

theorem spans_dot_slash (r : Octets) :
    spans ⟨dot :: slash :: r⟩ = (.here, 1) :: spansFrom 2 (pieces r) := by
  have habs : isAbsolute ⟨dot :: slash :: r⟩ = false := rfl
  simp only [spans, pieces_dot_slash, habs, Bool.false_eq_true, if_false, if_true]

theorem spans_dot : spans ⟨[dot]⟩ = [(.here, 1)] := rfl

theorem Plain.isAbsolute_eq (h : Plain o) : isAbsolute ⟨o⟩ = false := by
  rw [isAbsolute, beq_eq_false_iff_ne]
  intro hhead
  obtain ⟨r, rfl⟩ := List.head?_eq_some_iff.1 hhead
  exact h.not_root ⟨r, rfl⟩

theorem Plain.head?_pieces (h : Plain o) : (pieces o).head? ≠ some [dot] := by
  intro hhead
  rcases pieces_cases o with ⟨-, hone⟩ | ⟨x, r, -, rfl, hmore⟩
  · rw [hone] at hhead
    exact h.not_dot (Option.some.inj hhead)
  · rw [hmore] at hhead
    cases hhead
    exact h.not_here ⟨r, rfl⟩

theorem spans_plain (h : Plain o) : spans ⟨o⟩ = spansFrom 0 (pieces o) := by
  have habs := h.isAbsolute_eq
  rcases pieces_cases o with ⟨-, hone⟩ | ⟨x, r, -, rfl, hmore⟩
  · simp only [spans, hone, habs, h.not_dot, Bool.false_eq_true, if_false]
  · have hx : x ≠ [dot] := by
      rintro rfl
      exact h.not_here ⟨r, rfl⟩
    simp only [spans, hmore, habs, hx, Bool.false_eq_true, if_false]

theorem plain_cases (o : Octets) :
    (∃ r, o = slash :: r) ∨ o = [dot] ∨ (∃ r, o = dot :: slash :: r) ∨ Plain o := by
  by_cases hroot : [slash] <+: o
  · obtain ⟨r, rfl⟩ := hroot
    exact .inl ⟨r, rfl⟩
  by_cases hdot : o = [dot]
  · exact .inr (.inl hdot)
  by_cases hhere : [dot, slash] <+: o
  · obtain ⟨r, rfl⟩ := hhere
    exact .inr (.inr (.inl ⟨r, rfl⟩))
  · exact .inr (.inr (.inr ⟨hroot, hdot, hhere⟩))

/-- What a path starts with that is no piece of it: the root, or a dot in front of everything. -/
def opening (p : Path) : List Component :=
  if p.isAbsolute then [.root] else if (pieces p.octets).head? = some [dot] then [.here] else []

/-- The components of a path are what it starts with and its pieces, empty ones and dots apart. -/
theorem components_eq (p : Path) :
    p.components = p.opening ++ (pieces p.octets).filterMap ofPiece := by
  obtain ⟨o⟩ := p
  rcases plain_cases o with ⟨r, rfl⟩ | rfl | ⟨r, rfl⟩ | hplain
  · rw [components, spans_slash, List.map_cons, map_fst_spansFrom, pieces_slash]
    rfl
  · rfl
  · rw [components, spans_dot_slash, List.map_cons, map_fst_spansFrom, pieces_dot_slash, opening,
      pieces_dot_slash]
    rfl
  · rw [components, spans_plain hplain, map_fst_spansFrom, opening, hplain.isAbsolute_eq,
      if_neg Bool.false_ne_true, if_neg hplain.head?_pieces, List.nil_append]

theorem opening_cases (p : Path) : p.opening = [.root] ∨ p.opening = [.here] ∨ p.opening = [] := by
  unfold opening
  split
  · exact .inl rfl
  · split
    · exact .inr (.inl rfl)
    · exact .inr (.inr rfl)

theorem ofPiece_cases (h : ofPiece x = some c) :
    (x = [dot, dot] ∧ c = .up) ∨
      (c = .name x ∧ x ≠ [] ∧ x ≠ [dot] ∧ x ≠ [dot, dot]) := by
  unfold ofPiece at h
  split at h
  · cases h
  · rename_i hstand
    rw [not_or] at hstand
    split at h
    · rename_i hup
      cases h
      exact .inl ⟨hup, rfl⟩
    · rename_i hup
      cases h
      exact .inr ⟨rfl, hstand.1, hstand.2, hup⟩

theorem ofPiece_ne_root (x : Octets) : ofPiece x ≠ some .root := by
  intro h
  rcases ofPiece_cases h with ⟨-, hc⟩ | ⟨hc, -⟩ <;> cases hc

theorem components_of_root {p : Path} (h : p.components.getLast? = some .root) :
    p.components = [.root] := by
  rw [components_eq] at h ⊢
  cases hlast : ((pieces p.octets).filterMap ofPiece).getLast? with
  | some c =>
    rw [List.getLast?_append, hlast, Option.some_or] at h
    obtain ⟨x, -, hx⟩ := List.mem_filterMap.1 (List.mem_of_getLast? hlast)
    exact absurd (hx.trans h) (ofPiece_ne_root x)
  | none =>
    rw [List.getLast?_eq_none_iff] at hlast
    rw [hlast, List.append_nil] at h ⊢
    rcases p.opening_cases with hroot | hhere | hnone
    · exact hroot
    · rw [hhere] at h
      cases h
    · rw [hnone] at h
      cases h

/-- A path up to the end of one of its components has its components up to there. -/
theorem spans_take {p : Path} (h : p.spans = before ++ (c, stop) :: after) :
    spans ⟨p.octets.take stop⟩ = before ++ [(c, stop)] := by
  obtain ⟨o⟩ := p
  rcases plain_cases o with ⟨r, rfl⟩ | rfl | ⟨r, rfl⟩ | hplain
  · rw [spans_slash] at h
    cases before with
    | nil =>
      cases h
      rfl
    | cons e front =>
      simp only [List.cons_append, List.cons.injEq] at h
      obtain ⟨rfl, hr⟩ := h
      obtain ⟨n, rfl, htake⟩ := spansFrom_take hr
      rw [Nat.add_comm 1 n, List.take_succ_cons, spans_slash, htake, Nat.add_comm n 1]
      rfl
  · rw [spans_dot] at h
    cases before with
    | nil =>
      cases h
      rfl
    | cons e front => simp at h
  · rw [spans_dot_slash] at h
    cases before with
    | nil =>
      cases h
      rfl
    | cons e front =>
      simp only [List.cons_append, List.cons.injEq] at h
      obtain ⟨rfl, hr⟩ := h
      obtain ⟨n, rfl, htake⟩ := spansFrom_take hr
      rw [Nat.add_comm 2 n, List.take_succ_cons, List.take_succ_cons, spans_dot_slash, htake,
        Nat.add_comm n 2]
      rfl
  · rw [spans_plain hplain] at h
    obtain ⟨n, hstop, htake⟩ := spansFrom_take h
    rw [Nat.zero_add] at hstop
    subst hstop
    have hprefix : o.take stop <+: o := List.take_prefix ..
    have hcut : Plain (o.take stop) := by
      refine ⟨fun hroot => hplain.not_root (hroot.trans hprefix), fun hdot => ?_,
        fun hhere => hplain.not_here (hhere.trans hprefix)⟩
      -- A dot alone would be no component, but the octets up to `stop` have one.
      rw [hdot] at htake
      simp [pieces, spansFrom, ofPiece, consPiece, dot, slash] at htake
    rw [spans_plain hcut, htake]

/-! ## Parents -/

theorem components_parent {p q : Path} (h : p.parent? = some q) :
    q.components = p.components.dropLast := by
  unfold parent? at h
  split at h
  · cases h
  · cases h
  · rename_i e _ hspans
    cases h
    rw [List.reverse_eq_iff] at hspans
    rw [components, components, hspans]
    rfl
  · rename_i e c stop rest _ hspans
    cases h
    rw [List.reverse_eq_iff, List.reverse_cons, List.reverse_cons, List.append_assoc] at hspans
    rw [components, components, spans_take hspans, hspans]
    simp

theorem octets_parent {p q : Path} (h : p.parent? = some q) : q.octets <+: p.octets := by
  unfold parent? at h
  split at h
  · cases h
  · cases h
  · cases h
    exact List.nil_prefix
  · cases h
    exact List.take_prefix ..

theorem parent?_eq_none {p : Path} (h : p.parent? = none) :
    p.components = [] ∨ p.components.getLast? = some .root := by
  unfold parent? at h
  split at h
  · rename_i hspans
    rw [List.reverse_eq_nil_iff] at hspans
    rw [components, hspans]
    exact .inl rfl
  · rename_i hspans
    rw [List.reverse_eq_iff, List.reverse_cons] at hspans
    rw [components, hspans]
    exact .inr (by simp)
  · cases h
  · cases h

theorem dropLast_of_no_parent {p : Path} (h : p.parent? = none) : p.components.dropLast = [] := by
  rcases parent?_eq_none h with hnil | hroot
  · rw [hnil, List.dropLast_nil]
  · rw [components_of_root hroot, List.dropLast_singleton]

theorem plain_of_head? (hempty : (pieces o).head? ≠ some [])
    (hdot : (pieces o).head? ≠ some [dot]) : Plain o := by
  rcases plain_cases o with ⟨r, rfl⟩ | rfl | ⟨r, rfl⟩ | hplain
  · rw [pieces_slash] at hempty
    exact absurd rfl hempty
  · exact absurd rfl hdot
  · rw [pieces_dot_slash] at hdot
    exact absurd rfl hdot
  · exact hplain

theorem components_ofNames_plain {ps : List Octets} (h : ∀ x ∈ ps, slash ∉ x)
    (hplain : ∀ x ∈ ps, ofPiece x ≠ none) :
    (ofNames ps).components = ps.filterMap ofPiece := by
  cases ps with
  | nil => rfl
  | cons x ps =>
    have hpieces := pieces_joinNames (List.cons_ne_nil x ps) h
    have hhead := hplain x (List.mem_cons_self ..)
    have hstart : Plain (joinNames (x :: ps)) := by
      refine plain_of_head? ?_ ?_ <;>
      · rw [hpieces]
        intro hx
        cases hx
        exact hhead rfl
    rw [ofNames, components, spans_plain hstart, hpieces, map_fst_spansFrom]

theorem components_ofNames {names : List Name} (h : ∀ n ∈ names, Disk.Node.ValidName n) :
    (ofNames names).components = names.map .name := by
  have hplain : ∀ n ∈ names, ofPiece n ≠ none := by
    intro n hn
    simp [ofPiece_of_validName (h n hn)]
  rw [components_ofNames_plain (fun n hn => (h n hn).2.2.2.1) hplain,
    filterMap_ofPiece_of_valid h]

theorem slashed_ofNames {names : List Name} (h : ∀ n ∈ names, Disk.Node.ValidName n) :
    (ofNames names).slashed = List.intercalate ['/'] (names.map Utf8.decodeLossy) := by
  rw [slashed, components_ofNames h, List.map_map]
  rfl

/-- The component as a name, if it is one. -/
def Component.name? : Component → Option Name
  | .name n => some n
  | _ => none

theorem fileName?_eq (p : Path) : p.fileName? = p.components.getLast?.bind Component.name? := by
  unfold fileName?
  rcases p.components.getLast? with _ | _ | _ | _ | n <;> rfl

theorem name?_getLast?_map (names : List Name) :
    (names.map Component.name).getLast?.bind Component.name? = names.getLast? := by
  rw [List.getLast?_map]
  cases names.getLast? <;> rfl

end Path

namespace Names

open RefManifest.Path

variable {p : Path} {names : List Name}

/-- The directory above a path bears the last component but one, if that is a name. -/
theorem ofDir?_parent (p : Path) :
    ofDir? p.parent? =
      (p.components.dropLast.getLast?.bind Component.name?).map Text.ofOctets := by
  cases hparent : p.parent? with
  | some q => rw [ofDir?, Option.bind_some, fileName?_eq, components_parent hparent]
  | none =>
    rw [dropLast_of_no_parent hparent]
    rfl

theorem ofDir?_grandparent (p : Path) :
    ofDir? (p.parent?.bind Path.parent?) =
      (p.components.dropLast.dropLast.getLast?.bind Component.name?).map Text.ofOctets := by
  cases hparent : p.parent? with
  | some q => rw [Option.bind_some, ofDir?_parent, components_parent hparent]
  | none =>
    rw [dropLast_of_no_parent hparent]
    rfl

theorem ofDir?_parent_of_names (h : p.components = names.map .name) :
    ofDir? p.parent? = names.dropLast.getLast?.map Text.ofOctets := by
  rw [ofDir?_parent, h, ← List.map_dropLast, name?_getLast?_map]

theorem ofDir?_grandparent_of_names (h : p.components = names.map .name) :
    ofDir? (p.parent?.bind Path.parent?) = names.dropLast.dropLast.getLast?.map Text.ofOctets := by
  rw [ofDir?_grandparent, h, ← List.map_dropLast, ← List.map_dropLast, name?_getLast?_map]

end Names
end RefManifest
