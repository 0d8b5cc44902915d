import RefManifest.Proofs.Hierarchy.Status

/-!
# RefManifest.Proofs.Hierarchy.Conflict

Which step reports a conflict, and what it reports.

A step reports exactly if its record makes its component contested that was not so before
(`StartsConflict`). `record_snd_feed` reads this off the flag that filing returns, and
`add_of_starts` and `add_of_not_starts` say what each kind of step does to the sink, the answer
and the counter. By induction on the records, a run reports once for each contested component.
-/

namespace RefManifest

namespace Hierarchy

/-- The records of one part and component. -/
def ownRecords (rs : List Record) (place : String × String) : List Record :=
  ofComponent (ofPart rs place.1) place.2

/-- Where a record is filed. -/
def placeOf (r : Record) : String × String := (r.part, r.component)

/-- The component of `r` becomes contested when `r` is added after `before`. -/
def StartsConflict (before : List Record) (r : Record) : Prop :=
  Contested (ownRecords (before ++ [r]) (placeOf r)) ∧ ¬ Contested (ownRecords before (placeOf r))

/-- The parts and components that the records contest. -/
def contestedPlaces (rs : List Record) : List (String × String) :=
  (rs.map placeOf).eraseDups.filter fun place => Contested (ownRecords rs place)

theorem ownRecords_concat_self (rs : List Record) (r : Record) :
    ownRecords (rs ++ [r]) (placeOf r) = ownRecords rs (placeOf r) ++ [r] := by
  simp [ownRecords, placeOf, ofPart_concat, ofComponent_concat]

theorem ownRecords_concat_of_ne {rs : List Record} {r : Record} {place : String × String}
    (h : place ≠ placeOf r) : ownRecords (rs ++ [r]) place = ownRecords rs place := by
  obtain ⟨p, c⟩ := place
  simp only [ownRecords, ofPart_concat]
  by_cases hp : p = r.part
  · have hc : c ≠ r.component := fun e => h (by simp [placeOf, hp, e])
    simp [hp, ofComponent_concat, hc]
  · simp [hp]

theorem not_contested_of_fresh {rs : List Record} {place : String × String}
    (h : place ∉ rs.map placeOf) : ¬ Contested (ownRecords rs place) := by
  rintro ⟨⟨r, hr, -⟩, -⟩
  simp only [ownRecords, ofComponent, ofPart, List.mem_filter, decide_eq_true_eq] at hr
  exact h (List.mem_map.2 ⟨r, hr.1.1, by simp [placeOf, hr.1.2, hr.2]⟩)

/-- A contradiction is not taken back by later records. -/
theorem Contested.concat {own : List Record} (h : Contested own) (r : Record) :
    Contested (own ++ [r]) := by
  obtain ⟨⟨a, ha, hreq⟩, b, hb, hopt⟩ := h
  exact ⟨⟨a, List.mem_append_left _ ha, hreq⟩, b, List.mem_append_left _ hb, hopt⟩

theorem turns_iff (before : List Record) (r : Record) :
    (ComponentState.gathered r.component (ownRecords before (placeOf r))).turns r = true ↔
      StartsConflict before r := by
  rw [ComponentState.turns, ← ComponentState.gathered_concat, Bool.and_eq_true, Bool.not_eq_true',
    Bool.eq_false_iff, StartsConflict, ownRecords_concat_self]
  simp only [ne_eq, conflicted_iff]

theorem record_snd_feed (strict : Bool) (before : List Record) (r : Record) :
    ((feed strict before).record r).2 = true ↔ StartsConflict before r := by
  have hpart := (record_grouped (feed_indexed strict before) (feed_parts strict before) r).2
  have hcomponent := (PartState.record_grouped (PartState.gathered_indexed r.part _)
    (PartState.gathered_components r.part (ofPart before r.part)) r).2
  rw [hpart, hcomponent]
  exact turns_iff before r

/-- What a step does that starts a conflict. -/
theorem add_of_starts (strict : Bool) {before : List Record} {r : Record}
    (h : StartsConflict before r) :
    ((feed strict before).add r).2 =
        (if strict then ([addedNotice r, .fatal (conflictMessage r)], some (conflictOf r))
          else ([addedNotice r, .error (conflictMessage r)], none)) ∧
      ((feed strict before).add r).1.errorCount =
        if strict then (feed strict before).errorCount
        else (feed strict before).errorCount + 1 := by
  have hflag := (record_snd_feed strict before r).2 h
  have hmode := feed_exitOnError strict before
  cases strict <;> simp [add, hflag, hmode, record_errorCount]

theorem add_of_not_starts (strict : Bool) {before : List Record} {r : Record}
    (h : ¬ StartsConflict before r) :
    ((feed strict before).add r).2 = ([addedNotice r], none) ∧
      ((feed strict before).add r).1.errorCount = (feed strict before).errorCount := by
  have hflag : ((feed strict before).record r).2 = false := by
    rw [Bool.eq_false_iff]
    exact fun e => h ((record_snd_feed strict before r).1 e)
  simp [add, hflag, record_errorCount]

/-! ## The run -/

/-- What the steps tell while the records are added, whatever each step answers. -/
def told (strict : Bool) (rs : List Record) : List Notice :=
  (rs.foldl (fun (s : Hierarchy × List Notice) r =>
    ((s.1.add r).1, s.2 ++ (s.1.add r).2.1)) (start strict, [])).2

theorem told_concat (strict : Bool) (rs : List Record) (r : Record) :
    told strict (rs ++ [r]) = told strict rs ++ ((feed strict rs).add r).2.1 := by
  have hstate : ∀ (rs : List Record) (h : Hierarchy) (ns : List Notice),
      (rs.foldl (fun (s : Hierarchy × List Notice) r =>
        ((s.1.add r).1, s.2 ++ (s.1.add r).2.1)) (h, ns)).1 =
          rs.foldl (fun h r => (h.add r).1) h := by
    intro rs
    induction rs with
    | nil => intro h ns; rfl
    | cons r rest ih => intro h ns; exact ih _ _
  simp [told, feed, hstate]

/-- In a list without repeats, a predicate that changes at one element alone, and there from false
to true, holds once more. -/
theorem length_filter_of_turn {α : Type} {p q : α → Bool} {k : α} {xs : List α}
    (hnd : xs.Nodup) (hk : k ∈ xs) (hsame : ∀ x ∈ xs, x ≠ k → q x = p x) (hp : p k = false)
    (hq : q k = true) : (xs.filter q).length = (xs.filter p).length + 1 := by
  induction xs with
  | nil => cases hk
  | cons x xs ih =>
    obtain ⟨hx, hrest⟩ := List.nodup_cons.1 hnd
    by_cases e : x = k
    · subst e
      have htail : xs.filter q = xs.filter p := by
        apply List.filter_congr
        intro y hy
        exact hsame y (List.mem_cons_of_mem _ hy) fun e => hx (e ▸ hy)
      simp [hp, hq, htail]
    · have hk' : k ∈ xs := by
        rcases List.mem_cons.1 hk with hk | hk
        · exact absurd hk.symm e
        · exact hk
      have hx' := hsame x (List.mem_cons_self ..) e
      have := ih hrest hk' fun y hy => hsame y (List.mem_cons_of_mem _ hy)
      cases h : p x <;> simp [hx', h, this]

theorem contestedPlaces_of_starts {rs : List Record} {r : Record} (h : StartsConflict rs r) :
    (contestedPlaces (rs ++ [r])).length = (contestedPlaces rs).length + 1 := by
  simp only [contestedPlaces, List.map_append, List.map_cons, List.map_nil, eraseDups_concat]
  have hsame : ∀ place, place ≠ placeOf r →
      decide (Contested (ownRecords (rs ++ [r]) place)) =
        decide (Contested (ownRecords rs place)) := by
    intro place hne
    rw [ownRecords_concat_of_ne hne]
  -- The place of `r` is counted for the first time, whether it was there before or not.
  split
  · rename_i hmem
    exact length_filter_of_turn (nodup_eraseDups _) (List.mem_eraseDups.2 hmem)
      (fun place _ hne => hsame place hne) (decide_eq_false h.2) (decide_eq_true h.1)
  · rename_i hmem
    have hold : ∀ place ∈ (rs.map placeOf).eraseDups,
        decide (Contested (ownRecords (rs ++ [r]) place)) =
          decide (Contested (ownRecords rs place)) :=
      fun place hp => hsame place fun e => hmem (e ▸ List.mem_eraseDups.1 hp)
    simp [List.filter_append, List.filter_congr hold, h.1]

theorem contestedPlaces_of_not_starts {rs : List Record} {r : Record}
    (h : ¬ StartsConflict rs r) :
    (contestedPlaces (rs ++ [r])).length = (contestedPlaces rs).length := by
  simp only [contestedPlaces, List.map_append, List.map_cons, List.map_nil, eraseDups_concat]
  have hown : Contested (ownRecords (rs ++ [r]) (placeOf r)) ↔
      Contested (ownRecords rs (placeOf r)) := by
    constructor
    · intro hc
      by_contra hn
      exact h ⟨hc, hn⟩
    · intro hc
      rw [ownRecords_concat_self]
      exact hc.concat r
  have hsame : ∀ place, decide (Contested (ownRecords (rs ++ [r]) place)) =
      decide (Contested (ownRecords rs place)) := by
    intro place
    by_cases e : place = placeOf r
    · subst e
      exact decide_eq_decide.2 hown
    · rw [ownRecords_concat_of_ne e]
  split
  · rw [List.filter_congr fun place _ => hsame place]
  · rename_i hmem
    rw [List.filter_append, List.filter_congr fun place _ => hsame place]
    simp [hown, not_contested_of_fresh hmem]

theorem reports_told (strict : Bool) (rs : List Record) :
    ((told strict rs).filter Notice.isReport).length = (contestedPlaces rs).length := by
  induction rs using List.reverseRecOn with
  | nil => rfl
  | append_singleton rs r ih =>
    rw [told_concat, List.filter_append, List.length_append, ih]
    by_cases h : StartsConflict rs r
    · rw [contestedPlaces_of_starts h, (add_of_starts _ h).1]
      cases strict <;> rfl
    · rw [contestedPlaces_of_not_starts h, (add_of_not_starts _ h).1]
      rfl

/-- The counter is the number of errors that the sink was told; a strict run tells none. -/
theorem errorCount_feed (strict : Bool) (rs : List Record) :
    (feed strict rs).errorCount = (Notice.errors (told strict rs)).length := by
  induction rs using List.reverseRecOn with
  | nil => rfl
  | append_singleton rs r ih =>
    rw [told_concat, feed_concat, Notice.errors, List.filterMap_append, List.length_append,
      ← Notice.errors, ← ih]
    by_cases h : StartsConflict rs r
    · rw [(add_of_starts _ h).1, (add_of_starts _ h).2]
      cases strict <;> rfl
    · rw [(add_of_not_starts _ h).1, (add_of_not_starts _ h).2]
      rfl

theorem errorCount_feed_strict (rs : List Record) : (feed true rs).errorCount = 0 := by
  induction rs using List.reverseRecOn with
  | nil => rfl
  | append_singleton rs r ih =>
    rw [feed_concat]
    by_cases h : StartsConflict rs r
    · rw [(add_of_starts _ h).2, if_pos rfl, ih]
    · rw [(add_of_not_starts _ h).2, ih]

theorem errorCount_feed_lenient (rs : List Record) :
    (feed false rs).errorCount = (contestedPlaces rs).length := by
  induction rs using List.reverseRecOn with
  | nil => rfl
  | append_singleton rs r ih =>
    rw [feed_concat]
    by_cases h : StartsConflict rs r
    · rw [(add_of_starts _ h).2, contestedPlaces_of_starts h, ih]
      rfl
    · rw [(add_of_not_starts _ h).2, contestedPlaces_of_not_starts h, ih]

/-- Conflicts are reported once, at the step that starts them. Adding `r` after `before`
reports exactly if the component of `r` becomes contested by it. A strict step reports it as
fatal and answers the failure, any other step reports it as an error and counts it; a step that
reports nothing leaves the sink and the counter alone. So the counter is the number of errors that
were told, and of the contested components unless the run is strict, where it is zero. -/
theorem add_reports (strict : Bool) (before : List Record) (r : Record) :
    let h := feed strict before
    let step := h.add r
    let failure := Failure.conflictingStatus r.part r.component
    let text := failure.message ++ " (contradicting directive in " ++ r.id ++ ")"
    (StartsConflict before r → strict = false →
      step.2.1.filter Notice.isReport = [.error text] ∧ step.2.2 = none ∧
        step.1.errorCount = h.errorCount + 1) ∧
    (StartsConflict before r → strict = true →
      step.2.1.filter Notice.isReport = [.fatal text] ∧ step.2.2 = some failure ∧
        step.1.errorCount = 0) ∧
    (¬ StartsConflict before r →
      step.2.1.filter Notice.isReport = [] ∧ step.2.2 = none ∧
        step.1.errorCount = h.errorCount) ∧
    ((told strict before).filter Notice.isReport).length = (contestedPlaces before).length ∧
    h.errorCount = (Notice.errors (told strict before)).length ∧
    h.errorCount = if strict then 0 else (contestedPlaces before).length := by
  refine ⟨?_, ?_, ?_, reports_told strict before, errorCount_feed strict before, ?_⟩
  · rintro h rfl
    obtain ⟨htold, hcount⟩ := add_of_starts false h
    exact ⟨by rw [htold]; rfl, by rw [htold]; rfl, hcount⟩
  · rintro h rfl
    obtain ⟨htold, hcount⟩ := add_of_starts true h
    refine ⟨by rw [htold]; rfl, by rw [htold]; rfl, ?_⟩
    rw [hcount, if_pos rfl, errorCount_feed_strict]
  · intro h
    obtain ⟨htold, hcount⟩ := add_of_not_starts strict h
    exact ⟨by rw [htold]; rfl, by rw [htold], hcount⟩
  · cases strict
    · exact errorCount_feed_lenient before
    · exact errorCount_feed_strict before

end Hierarchy
end RefManifest
