import Mathlib.Data.List.Induction
import RefManifest.Proofs.Hierarchy.Position

/-!
# RefManifest.Proofs.Hierarchy.Feed

Feeding a hierarchy, seen from the records alone.

`PartState.grouped` says what the parts of a sequence of records are without filing anything: one
part for each part name, in the order of the first record that bears it, and in each part one
component for each component name in the same way. `feed_parts` shows that filing the records one
after the other arrives there, in both modes and also past a step that reports a conflict.

* `fileIn_tabled`: the step at either level. With an index that is in order, filing one more record
  takes the groups of `rs` to those of `rs ++ [r]`.
* `feed_indexed` and `feed_parts`: the run, by induction on the records from the end.
-/

namespace RefManifest

section Distinct

variable {α : Type} [BEq α] [LawfulBEq α]

theorem eraseDups_concat (ks : List α) (k : α) :
    (ks ++ [k]).eraseDups = if k ∈ ks then ks.eraseDups else ks.eraseDups ++ [k] := by
  rw [List.eraseDups_append]
  by_cases h : k ∈ ks
  · simp [h, List.removeAll]
  · simp [h, List.removeAll, List.eraseDups_cons]

theorem nodup_eraseDups (ks : List α) : ks.eraseDups.Nodup := by
  generalize hn : ks.length = n
  induction n using Nat.strongRecOn generalizing ks with
  | ind n ih =>
    cases ks with
    | nil => simp
    | cons k rest =>
      have hlt : (rest.filter fun b => !b == k).length < n := by
        have := List.length_filter_le (fun b => !b == k) rest
        simp only [List.length_cons] at hn
        omega
      rw [List.eraseDups_cons, List.nodup_cons]
      refine ⟨?_, ih _ hlt _ rfl⟩
      simp [List.mem_eraseDups]

end Distinct

section Groups

variable (key : Record → String)

/-- The records with one key, in their order. -/
def under (k : String) (rs : List Record) : List Record := rs.filter fun r => key r = k

theorem under_concat (k : String) (rs : List Record) (r : Record) :
    under key k (rs ++ [r]) = if k = key r then under key k rs ++ [r] else under key k rs := by
  by_cases h : k = key r
  · simp [under, h]
  · have hne : ¬ key r = k := fun e => h e.symm
    simp [under, h, hne]

theorem under_eq_nil {rs : List Record} {k : String} (h : k ∉ rs.map key) :
    under key k rs = [] := by
  unfold under
  simp only [List.filter_eq_nil_iff, decide_eq_true_eq]
  intro r hr e
  exact h (List.mem_map.2 ⟨r, hr, e⟩)

/-- A table that is keyed by its names, after a change to the entry of one of them. -/
theorem set_map_of_positions {β : Type} {names : List String} {index : Index}
    (h : Positions names index) {g g' : String → β} {n : String} {i : Nat}
    (hi : names[i]? = some n) (hsame : ∀ k, k ≠ n → g' k = g k) :
    (names.map g).set i (g' n) = names.map g' := by
  apply List.ext_getElem?
  intro j
  rw [List.getElem?_set, List.length_map, List.getElem?_map, List.getElem?_map]
  by_cases hj : i = j
  · subst hj
    have hlt := (List.getElem?_eq_some_iff.1 hi).1
    rw [if_pos rfl, if_pos hlt, hi, Option.map_some]
  · rw [if_neg hj]
    refine Option.map_congr fun k hk => (hsame k ?_).symm
    rintro rfl
    exact hj (h.unique hi hk)

section Table

variable {β : Type} (make : String → List Record → β) {rs : List Record} {r : Record}

/-- One entry for each key, made from the records with that key. -/
def tabled (rs : List Record) : List β :=
  (rs.map key).eraseDups.map fun k => make k (under key k rs)

theorem make_under_concat {k : String} (hk : k ≠ key r) :
    make k (under key k (rs ++ [r])) = make k (under key k rs) := by
  rw [under_concat, if_neg hk]

theorem tabled_concat_known {index : Index} (h : Positions (rs.map key).eraseDups index) {i : Nat}
    (hi : (rs.map key).eraseDups[i]? = some (key r)) :
    tabled key make (rs ++ [r]) =
      (tabled key make rs).set i (make (key r) (under key (key r) rs ++ [r])) := by
  have hmem : key r ∈ rs.map key := List.mem_eraseDups.1 (List.mem_of_getElem? hi)
  have hself := under_concat key (key r) rs r
  rw [if_pos rfl] at hself
  rw [← hself, tabled, tabled, List.map_append, List.map_singleton, eraseDups_concat, if_pos hmem]
  exact (set_map_of_positions h hi fun k hk => make_under_concat key make hk).symm

theorem tabled_concat_new (hnew : key r ∉ rs.map key) :
    tabled key make (rs ++ [r]) = tabled key make rs ++ [make (key r) [r]] := by
  have hold : ∀ k ∈ (rs.map key).eraseDups,
      make k (under key k (rs ++ [r])) = make k (under key k rs) := by
    intro k hk
    refine make_under_concat key make ?_
    rintro rfl
    exact hnew (List.mem_eraseDups.1 hk)
  have hown : under key (key r) (rs ++ [r]) = [r] := by
    rw [under_concat, if_pos rfl, under_eq_nil key hnew, List.nil_append]
  rw [tabled, tabled, List.map_append, List.map_singleton, eraseDups_concat, if_neg hnew,
    List.map_append, List.map_congr_left hold, List.map_singleton, hown]

/-- One more record joins its group, or opens one at the end. The flag is that of the change to
its group. -/
theorem fileIn_tabled {name : β → String} (hname : ∀ k own, name (make k own) = k)
    {change : β → β × Bool}
    (hchange : ∀ own, (change (make (key r) own)).1 = make (key r) (own ++ [r]))
    {entries : List β} {index : Index} (hentries : entries = tabled key make rs)
    (h : Positions (entries.map name) index) :
    (fileIn (key r) (make (key r) []) change entries index).1 = tabled key make (rs ++ [r]) ∧
      (fileIn (key r) (make (key r) []) change entries index).2.2 =
        (change (make (key r) (under key (key r) rs))).2 := by
  subst hentries
  have hnames : (tabled key make rs).map name = (rs.map key).eraseDups := by
    simp [tabled, Function.comp_def, hname]
  rcases fileIn_cases h (key r) (make (key r) []) change with
    ⟨i, x, hx, hkey, hfile⟩ | ⟨hnew, hfile⟩
  · have hi : (rs.map key).eraseDups[i]? = some (key r) := by
      rw [← hnames, List.getElem?_map, hx, Option.map_some, hkey]
    have hmake : x = make (key r) (under key (key r) rs) := by
      rw [tabled, List.getElem?_map, hi, Option.map_some, Option.some.injEq] at hx
      exact hx.symm
    rw [hfile, hmake, hchange, tabled_concat_known key make (hnames ▸ h) hi]
    exact ⟨rfl, rfl⟩
  · rw [hnames, List.mem_eraseDups] at hnew
    rw [hfile, hchange, List.nil_append, tabled_concat_new key make hnew, under_eq_nil key hnew]
    exact ⟨rfl, rfl⟩

end Table

end Groups

/-- The records of one part, in their order. -/
def ofPart (rs : List Record) (p : String) : List Record := rs.filter fun r => r.part = p

/-- The records with one component name, in their order. -/
def ofComponent (rs : List Record) (c : String) : List Record :=
  rs.filter fun r => r.component = c

theorem ofPart_concat (rs : List Record) (r : Record) (p : String) :
    ofPart (rs ++ [r]) p = if p = r.part then ofPart rs p ++ [r] else ofPart rs p :=
  under_concat (·.part) p rs r

theorem ofComponent_concat (rs : List Record) (r : Record) (c : String) :
    ofComponent (rs ++ [r]) c =
      if c = r.component then ofComponent rs c ++ [r] else ofComponent rs c :=
  under_concat (·.component) c rs r

namespace ComponentState

/-- What is known of the component `c` once the records have been filed under it. -/
def gathered (c : String) (rs : List Record) : ComponentState := rs.foldl record (start c)

theorem gathered_concat (c : String) (rs : List Record) (r : Record) :
    gathered c (rs ++ [r]) = (gathered c rs).record r := by
  simp [gathered]

theorem gathered_name (c : String) (rs : List Record) : (gathered c rs).name = c := by
  suffices h : ∀ s : ComponentState, (rs.foldl record s).name = s.name from h (start c)
  induction rs with
  | nil => intro s; rfl
  | cons r rs ih => intro s; exact ih (s.record r)

/-- The components of the records of one part. -/
def grouped (rs : List Record) : List ComponentState :=
  (rs.map (·.component)).eraseDups.map fun c => gathered c (ofComponent rs c)

end ComponentState

namespace PartState

/-- What is known of the part `p` once the records have been filed under it. -/
def gathered (p : String) (rs : List Record) : PartState :=
  rs.foldl (fun s r => (s.record r).1) (start p)

theorem gathered_concat (p : String) (rs : List Record) (r : Record) :
    gathered p (rs ++ [r]) = ((gathered p rs).record r).1 := by
  simp [gathered]

theorem gathered_name (p : String) (rs : List Record) : (gathered p rs).name = p := by
  induction rs using List.reverseRecOn with
  | nil => rfl
  | append_singleton rs r ih => rw [gathered_concat, record_name, ih]

theorem gathered_indexed (p : String) (rs : List Record) : (gathered p rs).Indexed := by
  induction rs using List.reverseRecOn with
  | nil => exact start_indexed p
  | append_singleton rs r ih =>
    rw [gathered_concat]
    exact record_indexed ih r

/-- One more record in a part with the components of `rs`, and whether it turns its component. -/
theorem record_grouped {p : PartState} (hp : p.Indexed) {rs : List Record}
    (h : p.components = ComponentState.grouped rs) (r : Record) :
    (p.record r).1.components = ComponentState.grouped (rs ++ [r]) ∧
      (p.record r).2 =
        (ComponentState.gathered r.component (ofComponent rs r.component)).turns r :=
  fileIn_tabled (·.component) ComponentState.gathered ComponentState.gathered_name
    (fun own => (ComponentState.gathered_concat r.component own r).symm) h hp

theorem gathered_components (p : String) (rs : List Record) :
    (gathered p rs).components = ComponentState.grouped rs := by
  induction rs using List.reverseRecOn with
  | nil => rfl
  | append_singleton rs r ih =>
    rw [gathered_concat]
    exact (record_grouped (gathered_indexed p rs) ih r).1

/-- The parts of the records. -/
def grouped (rs : List Record) : List PartState :=
  (rs.map (·.part)).eraseDups.map fun p => gathered p (ofPart rs p)

end PartState

namespace Hierarchy

/-- One more record in a hierarchy with the parts of `rs`. -/
theorem record_grouped {h : Hierarchy} (hi : h.Indexed) {rs : List Record}
    (hparts : h.parts = PartState.grouped rs) (r : Record) :
    (h.record r).1.parts = PartState.grouped (rs ++ [r]) ∧
      (h.record r).2 = ((PartState.gathered r.part (ofPart rs r.part)).record r).2 :=
  fileIn_tabled (·.part) PartState.gathered PartState.gathered_name
    (fun own => (PartState.gathered_concat r.part own r).symm) hparts hi.1

/-! ## The run -/

/-- The hierarchy after the records have been added one after the other, whatever each step
answers. -/
def feed (strict : Bool) (rs : List Record) : Hierarchy :=
  rs.foldl (fun h r => (h.add r).1) (start strict)

theorem feed_concat (strict : Bool) (rs : List Record) (r : Record) :
    feed strict (rs ++ [r]) = ((feed strict rs).add r).1 := by
  simp [feed]

theorem add_parts (h : Hierarchy) (r : Record) :
    (h.add r).1.parts = (h.record r).1.parts := by
  simp only [add]
  split
  · split <;> rfl
  · rfl

theorem add_exitOnError (h : Hierarchy) (r : Record) :
    (h.add r).1.exitOnError = h.exitOnError := by
  simp only [add]
  split
  · split <;> rfl
  · rfl

theorem feed_exitOnError (strict : Bool) (rs : List Record) :
    (feed strict rs).exitOnError = strict := by
  induction rs using List.reverseRecOn with
  | nil => rfl
  | append_singleton rs r ih => rw [feed_concat, add_exitOnError, ih]

theorem feed_indexed (strict : Bool) (rs : List Record) : (feed strict rs).Indexed := by
  induction rs using List.reverseRecOn with
  | nil => exact start_indexed strict
  | append_singleton rs r ih =>
    rw [feed_concat]
    exact add_indexed ih r

/-- The parts do not depend on the mode, nor on what the steps answered. -/
theorem feed_parts (strict : Bool) (rs : List Record) :
    (feed strict rs).parts = PartState.grouped rs := by
  induction rs using List.reverseRecOn with
  | nil => rfl
  | append_singleton rs r ih =>
    rw [feed_concat, add_parts]
    exact (record_grouped (feed_indexed strict rs) ih r).1

end Hierarchy
end RefManifest
