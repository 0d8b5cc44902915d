import RefManifest.Disk.Resolve

/-!
# RefManifest.Proofs.Disk.Steps

What the pieces of a path are, and how the path to a place is taken apart again.

A piece holds no slash, so a step to a name is a step to a name that a directory entry can bear.
The path `Path.ofRoot place` has the names of `place` as its components and as its steps, whatever
the place, because splitting undoes joining.
-/

namespace RefManifest

open Text Disk

namespace Path

theorem mem_consPiece {b : UInt8} {l : List Octets} {x : Octets} (h : x ∈ consPiece b l) :
    (∃ y, x = b :: y ∧ (y = [] ∨ y ∈ l)) ∨ x ∈ l := by
  cases l with
  | nil =>
    simp only [consPiece, List.mem_singleton] at h
    exact .inl ⟨[], h, .inl rfl⟩
  | cons y ys =>
    simp only [consPiece, List.mem_cons] at h
    rcases h with h | h
    · exact .inl ⟨y, h, .inr (List.mem_cons_self ..)⟩
    · exact .inr (List.mem_cons_of_mem _ h)

theorem slash_not_mem_piece {s x : Octets} (h : x ∈ pieces s) : slash ∉ x := by
  induction s generalizing x with
  | nil =>
    simp only [pieces, List.mem_singleton] at h
    simp [h]
  | cons b rest ih =>
    unfold pieces at h
    split at h
    · rcases List.mem_cons.1 h with rfl | h
      · simp
      · exact ih h
    · rename_i hb
      rcases mem_consPiece h with ⟨y, rfl, rfl | hy⟩ | h
      · simpa using fun e => hb e.symm
      · simpa using ⟨fun e => hb e.symm, ih hy⟩
      · exact ih h

theorem mem_of_mem_piece {s x : Octets} {b : UInt8} (h : x ∈ pieces s) (hb : b ∈ x) : b ∈ s := by
  induction s generalizing x with
  | nil =>
    simp only [pieces, List.mem_singleton] at h
    simp [h] at hb
  | cons a rest ih =>
    unfold pieces at h
    split at h
    · rcases List.mem_cons.1 h with rfl | h
      · cases hb
      · exact List.mem_cons_of_mem _ (ih h hb)
    · rcases mem_consPiece h with ⟨y, rfl, rfl | hy⟩ | h
      · simp only [List.mem_singleton] at hb
        simp [hb]
      · rcases List.mem_cons.1 hb with rfl | hb
        · exact List.mem_cons_self ..
        · exact List.mem_cons_of_mem _ (ih hy hb)
      · exact List.mem_cons_of_mem _ (ih h hb)

theorem ofPiece_of_validName {n : Name} (h : Node.ValidName n) : ofPiece n = some (.name n) := by
  obtain ⟨hne, hdot, hup, -, -⟩ := h
  simp [ofPiece, hne, hdot, hup]

theorem pieces_joinNames_of_valid {place : List Name} (hne : place ≠ [])
    (h : ∀ n ∈ place, Node.ValidName n) : pieces (joinNames place) = place :=
  pieces_joinNames hne fun n hn => (h n hn).2.2.2.1

theorem pieces_ofRoot {place : List Name} (h : ∀ n ∈ place, Node.ValidName n) :
    pieces (ofRoot place).octets = if place = [] then [[], []] else [] :: place := by
  unfold ofRoot
  by_cases hne : place = []
  · subst hne
    rfl
  · simp [pieces, hne, pieces_joinNames_of_valid hne h]

theorem map_fst_spansFrom (start : Nat) (ps : List Octets) :
    (spansFrom start ps).map (·.1) = ps.filterMap ofPiece := by
  induction ps generalizing start with
  | nil => rfl
  | cons x xs ih =>
    simp only [spansFrom, List.filterMap_cons]
    cases ofPiece x with
    | none => exact ih _
    | some c => simp [ih]

theorem filterMap_ofPiece_of_valid {place : List Name} (h : ∀ n ∈ place, Node.ValidName n) :
    place.filterMap ofPiece = place.map .name := by
  induction place with
  | nil => rfl
  | cons n rest ih =>
    rw [List.filterMap_cons, ofPiece_of_validName (h n (List.mem_cons_self ..))]
    simp [ih fun k hk => h k (List.mem_cons_of_mem _ hk)]

theorem components_ofRoot {place : List Name} (h : ∀ n ∈ place, Node.ValidName n) :
    (ofRoot place).components = .root :: place.map .name := by
  have habs : (ofRoot place).isAbsolute = true := by simp [ofRoot, isAbsolute]
  rw [components, spans, pieces_ofRoot h]
  by_cases hne : place = []
  · subst hne
    rfl
  · simp [hne, habs, map_fst_spansFrom, filterMap_ofPiece_of_valid h]

theorem same_ofRoot {a b : List Name} (ha : ∀ n ∈ a, Node.ValidName n)
    (hb : ∀ n ∈ b, Node.ValidName n) : (ofRoot a).same (ofRoot b) = true ↔ a = b := by
  rw [same, components_ofRoot ha, components_ofRoot hb, beq_iff_eq, List.cons.injEq]
  have hinj : Function.Injective Component.name := fun _ _ e => Component.name.inj e
  simp [List.map_inj_right fun x y e => hinj e]

theorem joinNames_append {a b : List Name} (ha : a ≠ []) (hb : b ≠ []) :
    joinNames (a ++ b) = joinNames a ++ slash :: joinNames b := by
  induction a with
  | nil => exact absurd rfl ha
  | cons n rest ih =>
    cases rest with
    | nil =>
      cases b with
      | nil => exact absurd rfl hb
      | cons m b => rfl
    | cons m rest =>
      have := ih (by simp)
      simp only [List.cons_append, joinNames] at this ⊢
      rw [this, List.append_assoc, List.cons_append]

theorem joinNames_ne_nil {place : List Name} (hne : place ≠ [])
    (h : ∀ n ∈ place, Node.ValidName n) : joinNames place ≠ [] := by
  intro hnil
  have hpieces := pieces_joinNames_of_valid hne h
  rw [hnil] at hpieces
  have hmem : ([] : Octets) ∈ place := by rw [← hpieces]; simp [pieces]
  exact (h [] hmem).1 rfl

theorem getLast?_joinNames_ne_slash {place : List Name} (h : ∀ n ∈ place, Node.ValidName n) :
    (joinNames place).getLast? ≠ some slash := by
  induction place with
  | nil => simp [joinNames]
  | cons n rest ih =>
    obtain ⟨hne, -, -, hslash, -⟩ := h n (List.mem_cons_self ..)
    cases rest with
    | nil =>
      intro e
      exact hslash (List.mem_of_getLast? e)
    | cons m rest =>
      have hrest := ih fun k hk => h k (List.mem_cons_of_mem _ hk)
      rw [joinNames, List.getLast?_append]
      cases hlast : (joinNames (m :: rest)).getLast? with
      | none =>
        have hm := joinNames_ne_nil (List.cons_ne_nil m rest) fun k hk =>
          h k (List.mem_cons_of_mem _ hk)
        exact absurd (List.getLast?_eq_none_iff.1 hlast) hm
      | some b =>
        rw [List.getLast?_cons, hlast]
        rw [hlast] at hrest
        simpa using hrest

theorem below_ofRoot {place names : List Name} (hplace : ∀ n ∈ place, Node.ValidName n)
    (hnames : ∀ n ∈ names, Node.ValidName n) :
    (ofRoot place).below names = ofRoot (place ++ names) := by
  cases names with
  | nil => simp [below]
  | cons n rest =>
    have hrel : (ofNames (n :: rest)).isAbsolute = false := by
      obtain ⟨hne, -, -, hslash, -⟩ := hnames n (List.mem_cons_self ..)
      obtain ⟨b, n', rfl⟩ := List.exists_cons_of_ne_nil hne
      have hb : b ≠ slash := fun e => hslash (e ▸ List.mem_cons_self ..)
      cases rest <;> simp [ofNames, joinNames, isAbsolute, hb]
    rw [below, if_neg (by simp), join, hrel]
    simp only [Bool.false_eq_true, if_false]
    by_cases hne : place = []
    · subst hne
      simp [ofRoot, ofNames, joinNames]
    · have hj := joinNames_ne_nil hne hplace
      have hlast : (ofRoot place).octets.getLast? = (joinNames place).getLast? := by
        rw [ofRoot, List.getLast?_cons_of_ne_nil hj]
      rw [hlast]
      cases hl : (joinNames place).getLast? with
      | none => exact absurd (List.getLast?_eq_none_iff.1 hl) hj
      | some b =>
        have hb : b ≠ slash := fun e => getLast?_joinNames_ne_slash hplace (by rw [hl, e])
        simp [ofRoot, ofNames, joinNames_append hne, hb]

end Path

namespace Disk

theorem validName_of_mem_stepsOf {p : Path} {n : Name} (hnul : (0 : UInt8) ∉ p.octets)
    (h : Step.name n ∈ stepsOf p) : Node.ValidName n := by
  obtain ⟨x, hx, hstep⟩ := List.mem_map.1 h
  unfold Step.ofPiece at hstep
  split at hstep
  · cases hstep
  · rename_i hne
    split at hstep
    · cases hstep
    · rename_i hup
      cases hstep
      rw [not_or] at hne
      exact ⟨hne.1, hne.2, hup, Path.slash_not_mem_piece hx,
        fun h0 => hnul (Path.mem_of_mem_piece hx h0)⟩

theorem isEmpty_of_mem_stepsOf {p : Path} {n : Name} (h : Step.name n ∈ stepsOf p) :
    p.isEmpty = false := by
  cases hempty : p.isEmpty with
  | false => rfl
  | true =>
    have hnil : p.octets = [] := List.isEmpty_iff.1 hempty
    have hhere : stepsOf p = [.here] := by rw [stepsOf, hnil]; rfl
    simp [hhere] at h

theorem map_ofPiece_of_valid {place : List Name} (h : ∀ n ∈ place, Node.ValidName n) :
    place.map Step.ofPiece = place.map .name := by
  apply List.map_congr_left
  intro n hn
  obtain ⟨hne, hdot, hup, -, -⟩ := h n hn
  simp [Step.ofPiece, hne, hdot, hup]

theorem stepsOf_ofRoot {place : List Name} (h : ∀ n ∈ place, Node.ValidName n) :
    stepsOf (Path.ofRoot place) =
      if place = [] then [.here, .here] else .here :: place.map .name := by
  rw [stepsOf, Path.pieces_ofRoot h]
  by_cases hne : place = []
  · simp [hne, Step.ofPiece]
  · simp [hne, Step.ofPiece, ← map_ofPiece_of_valid h]

end Disk
end RefManifest
