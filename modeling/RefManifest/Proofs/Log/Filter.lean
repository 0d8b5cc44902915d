import Mathlib.Data.List.Induction
import RefManifest.Log

/-!
# RefManifest.Proofs.Log.Filter

Which notices a filter lets pass.

Of the rules that apply to a notice one decides: no other has a longer target, or asks for a field
where this one does not, and of those that are as strong it is the last (`Decides`). The notice
passes if it is not above the rank of that rule (`passes_iff`).
-/

namespace RefManifest
namespace Log

variable {f : Filter} {n : Notice} {r r' b x : Rule}

namespace Rule

theorem yieldsTo_iff :
    r.yieldsTo b = true ↔
      r.target.length < b.target.length ∨
        r.target.length = b.target.length ∧ r.fieldWeight < b.fieldWeight := by
  simp [yieldsTo]

/-- A rule applies to the notices of the topics that its target opens, if they have the field that
it asks for. -/
theorem applies_iff :
    r.applies n = true ↔
      r.target <+: n.topic.target.toList ∧
        ∀ name, r.field = some name →
          name = "message".toList ∨ name = "fatal".toList ∧ ∃ m, n = .fatal m := by
  have htarget : (Text.stripLead? r.target n.topic.target.toList).isSome = true ↔
      r.target <+: n.topic.target.toList := by
    rw [Option.isSome_iff_exists]
    exact exists_congr fun rest => Text.stripLead?_eq_some.trans eq_comm
  have hfatal : n.fatal?.isSome = true ↔ ∃ m, n = .fatal m := by
    cases n <;> simp [Notice.fatal?]
  rw [applies, Bool.and_eq_true, htarget, Option.all_eq_true]
  simp only [hasField, Bool.or_eq_true, Bool.and_eq_true, beq_iff_eq, hfatal]

end Rule

namespace Filter

/-- The last of the strongest rules that apply to the notice. -/
def Decides (f : Filter) (n : Notice) (r : Rule) : Prop :=
  ∃ front back, f = front ++ r :: back ∧ r.applies n = true ∧
    (∀ b ∈ front, b.applies n = true → r.yieldsTo b = false) ∧
    ∀ b ∈ back, b.applies n = true → b.yieldsTo r = true

namespace Decides

/-- No rule that applies is stronger. -/
theorem not_yieldsTo (h : f.Decides n r) (hb : b ∈ f) (happlies : b.applies n = true) :
    r.yieldsTo b = false := by
  obtain ⟨front, back, rfl, -, hfront, hback⟩ := h
  rcases List.mem_append.1 hb with hb | hb
  · exact hfront b hb happlies
  · rw [Bool.eq_false_iff, ne_eq, Rule.yieldsTo_iff]
    rcases List.mem_cons.1 hb with rfl | hb
    · omega
    · have := Rule.yieldsTo_iff.1 (hback b hb happlies)
      omega

theorem concat (h : f.Decides n r) (hx : x.applies n = true → x.yieldsTo r = true) :
    Decides (f ++ [x]) n r := by
  obtain ⟨front, back, rfl, happlies, hfront, hback⟩ := h
  refine ⟨front, back ++ [x], by simp, happlies, hfront, fun b hb => ?_⟩
  rcases List.mem_append.1 hb with hb | hb
  · exact hback b hb
  · rw [List.mem_singleton.1 hb]
    exact hx

theorem unique (h : f.Decides n r) (h' : f.Decides n r') : r = r' := by
  obtain ⟨front, back, rfl, happlies, hfront, hback⟩ := h
  obtain ⟨front', back', heq, happlies', hfront', hback'⟩ := h'
  rcases List.append_eq_append_iff.1 heq with ⟨between, rfl, hrest⟩ | ⟨between, rfl, hrest⟩
  · cases between with
    | nil => exact (List.cons.inj hrest).1
    | cons a between =>
      obtain ⟨rfl, rfl⟩ := List.cons.inj hrest
      have hno := hfront' r (by simp) happlies
      rw [hback r' (by simp) happlies'] at hno
      cases hno
  · cases between with
    | nil => exact (List.cons.inj hrest).1.symm
    | cons a between =>
      obtain ⟨rfl, rfl⟩ := List.cons.inj hrest
      have hno := hfront r' (by simp) happlies'
      rw [hback' r (by simp) happlies] at hno
      cases hno

end Decides

theorem ruleFor?_concat_of_not_applies (h : x.applies n = false) :
    ruleFor? (f ++ [x]) n = f.ruleFor? n := by
  simp [ruleFor?, h]

theorem ruleFor?_concat_of_none (h : x.applies n = true) (hf : f.ruleFor? n = none) :
    ruleFor? (f ++ [x]) n = some x := by
  unfold ruleFor? at hf ⊢
  rw [List.filter_append, List.foldl_append, hf]
  simp [h]

theorem ruleFor?_concat_of_some (h : x.applies n = true) (hf : f.ruleFor? n = some b) :
    ruleFor? (f ++ [x]) n = if x.yieldsTo b then some b else some x := by
  unfold ruleFor? at hf ⊢
  rw [List.filter_append, List.foldl_append, hf]
  simp [h]

/-- The search goes through the rules once and keeps the strongest so far. -/
theorem ruleFor?_decides (f : Filter) (n : Notice) :
    (f.ruleFor? n = none ∧ ∀ r ∈ f, r.applies n = false) ∨
      ∃ r, f.ruleFor? n = some r ∧ f.Decides n r := by
  induction f using List.reverseRecOn with
  | nil => exact .inl ⟨rfl, fun _ hr => absurd hr List.not_mem_nil⟩
  | append_singleton f x ih =>
    cases happlies : x.applies n with
    | false =>
      rw [ruleFor?_concat_of_not_applies happlies]
      rcases ih with ⟨hnone, hall⟩ | ⟨r, hr, hdecides⟩
      · refine .inl ⟨hnone, fun r hr => ?_⟩
        rcases List.mem_append.1 hr with hr | hr
        · exact hall r hr
        · rwa [List.mem_singleton.1 hr]
      · exact .inr ⟨r, hr, hdecides.concat fun h => by simp [happlies] at h⟩
    | true =>
      right
      rcases ih with ⟨hnone, hall⟩ | ⟨r, hr, hdecides⟩
      · refine ⟨x, ruleFor?_concat_of_none happlies hnone, f, [], rfl, happlies, ?_, by simp⟩
        intro b hb h
        rw [hall b hb] at h
        cases h
      · rw [ruleFor?_concat_of_some happlies hr]
        cases hyields : x.yieldsTo r with
        | true => exact ⟨r, rfl, hdecides.concat fun _ => hyields⟩
        | false =>
          refine ⟨x, rfl, f, [], rfl, happlies, fun b hb hb' => ?_, by simp⟩
          -- What is not weaker than the strongest so far is not weaker than any.
          have hrb := hdecides.not_yieldsTo hb hb'
          rw [Bool.eq_false_iff, ne_eq, Rule.yieldsTo_iff] at hyields hrb ⊢
          omega

theorem ruleFor?_eq_some : f.ruleFor? n = some r ↔ f.Decides n r := by
  rcases ruleFor?_decides f n with ⟨hnone, hall⟩ | ⟨r', hr', hdecides⟩
  · rw [hnone]
    constructor
    · intro h
      cases h
    · rintro ⟨front, back, rfl, happlies, -⟩
      rw [hall r (by simp)] at happlies
      cases happlies
  · rw [hr', Option.some.injEq]
    exact ⟨fun h => h ▸ hdecides, fun h => hdecides.unique h⟩

/-- A notice passes exactly if a rule decides on it and lets its rank through. -/
theorem passes_iff : f.passes n = true ↔ ∃ r, f.Decides n r ∧ n.level.rank ≤ r.rank := by
  simp only [← ruleFor?_eq_some, passes]
  cases f.ruleFor? n with
  | none => simp
  | some r => simp

theorem passes_upTo {level : Level} :
    (upTo level).passes n = true ↔ n.level.rank ≤ level.rank := by
  rw [passes_iff]
  constructor
  · rintro ⟨r, ⟨front, back, hf, -⟩, hrank⟩
    have hr : r ∈ upTo level := by simp [hf]
    rw [List.mem_singleton.1 hr] at hrank
    exact hrank
  · intro hrank
    exact ⟨_, ⟨[], [], rfl, by simp [Rule.applies_iff], by simp, by simp⟩, hrank⟩

end Filter

end Log
end RefManifest
