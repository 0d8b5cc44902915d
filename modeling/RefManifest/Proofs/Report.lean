import Mathlib.Data.List.Infix
import RefManifest.Report

/-!
# RefManifest.Proofs.Report

What is left of the contexts of an error in its report.

A report is about the failure at the root. Its suggestion is that of the failure, and its details
are those of the failure with the outermost context in front, unless that context repeats the
failure (`details_of_told`, `details_of_repeated`). The contexts between the two are not looked at
(`ofTrouble_take_one`), so they are shown only where the rest of the report happens to hold their
text: `contexts_shown` tells when no context is lost, and `inner_context_lost` is an error under
two contexts that loses one.
-/

namespace RefManifest
namespace Report

variable {r : Report} {f : Failure} {outer s t : String} {inner : List String}

/-- The text of the report holds `s`. -/
def Shows (r : Report) (s : String) : Prop := s.toList <:+: r.text.toList

instance (r : Report) (s : String) : Decidable (r.Shows s) := inferInstanceAs (Decidable (_ <:+: _))

theorem shows_failure (r : Report) : r.Shows r.failure.message := by
  rw [Shows, text, String.toList_append, String.toList_append, List.append_assoc]
  exact (List.prefix_append _ _).isInfix

/-- What stands in the details is shown. -/
theorem shows_of_details (hdetails : r.details = some t) (h : s.toList <:+: t.toList) :
    r.Shows s := by
  refine h.trans ?_
  rw [text, hdetails]
  simp only [String.toList_append]
  rw [← List.append_assoc r.failure.message.toList]
  exact List.infix_append _ _ _

theorem ofTrouble_failure (contexts : List String) (f : Failure) :
    (ofTrouble (.failure contexts f)).failure = f ∧
      (ofTrouble (.failure contexts f)).suggestion = suggestionFor f := by
  simp only [ofTrouble]
  split
  · exact ⟨rfl, rfl⟩
  · split <;> exact ⟨rfl, rfl⟩

theorem details_bare (f : Failure) : (ofTrouble (.failure [] f)).details = detailsFor f := by
  simp [ofTrouble, ofFailure]

theorem details_of_repeated (h : outer = f.message) :
    (ofTrouble (.failure (outer :: inner) f)).details = detailsFor f := by
  simp [ofTrouble, ofFailure, h]

/-- The outermost context stands in front of the details of the failure. -/
theorem details_of_told (h : outer ≠ f.message) :
    (ofTrouble (.failure (outer :: inner) f)).details =
      some (match detailsFor f with
        | some own => outer ++ "\n" ++ own
        | none => outer) := by
  simp only [ofTrouble, List.headD_cons, h, if_false, ofFailure]
  cases detailsFor f <;> rfl

/-- The contexts below the outermost one leave no trace. -/
theorem ofTrouble_take_one (contexts : List String) (f : Failure) :
    ofTrouble (.failure (contexts.take 1) f) = ofTrouble (.failure contexts f) := by
  cases contexts <;> rfl

theorem shows_outermost (outer : String) (inner : List String) (f : Failure) :
    (ofTrouble (.failure (outer :: inner) f)).Shows outer := by
  by_cases hrepeats : outer = f.message
  · have hshown := shows_failure (ofTrouble (.failure (outer :: inner) f))
    rwa [(ofTrouble_failure _ f).1, ← hrepeats] at hshown
  · refine shows_of_details (details_of_told hrepeats) ?_
    cases detailsFor f with
    | none => exact List.infix_rfl
    | some own =>
      simp only [String.toList_append, List.append_assoc]
      exact (List.prefix_append _ _).isInfix

theorem shows_detailsFor (contexts : List String) (h : detailsFor f = some s) :
    (ofTrouble (.failure contexts f)).Shows s := by
  cases contexts with
  | nil => exact shows_of_details ((details_bare f).trans h) List.infix_rfl
  | cons outer inner =>
    by_cases hrepeats : outer = f.message
    · exact shows_of_details ((details_of_repeated hrepeats).trans h) List.infix_rfl
    · refine shows_of_details (details_of_told hrepeats) ?_
      rw [h, String.toList_append]
      exact (List.suffix_append _ _).isInfix

/-- What the report of a failure under contexts keeps. It is about that failure, with the
suggestion of the bare failure, and it shows the details of the bare failure and the outermost
context. The contexts below that one change nothing, so none is lost exactly if each of them is
part of what the report shows without them. -/
theorem contexts_shown (contexts : List String) (f : Failure) :
    let report := ofTrouble (.failure contexts f)
    let bare := ofTrouble (.failure [] f)
    report.failure = f ∧ report.suggestion = bare.suggestion ∧
    (∀ s, bare.details = some s → report.Shows s) ∧
    (∀ s, contexts.head? = some s → report.Shows s) ∧
    report = ofTrouble (.failure (contexts.take 1) f) ∧
    ((∀ s ∈ contexts, report.Shows s) ↔
      ∀ s ∈ contexts.tail, (ofTrouble (.failure (contexts.take 1) f)).Shows s) := by
  intro report bare
  obtain ⟨hfailure, hsuggestion⟩ := ofTrouble_failure contexts f
  refine ⟨hfailure, ?_, fun s hs => ?_, fun s hs => ?_, (ofTrouble_take_one contexts f).symm, ?_⟩
  · rw [hsuggestion, (ofTrouble_failure [] f).2]
  · rw [details_bare] at hs
    exact shows_detailsFor contexts hs
  · obtain ⟨inner, rfl⟩ := List.head?_eq_some_iff.1 hs
    exact shows_outermost s inner f
  · rw [ofTrouble_take_one]
    cases contexts with
    | nil => simp
    | cons outer inner =>
      rw [List.forall_mem_cons]
      exact and_iff_right (shows_outermost outer inner f)

/-- Under two contexts that tell different things, the inner one is not told. -/
theorem inner_context_lost :
    let report := ofTrouble (.failure ["Run failed", "Failed to generate metadata"]
      (.referenceDirNotFound "/nope"))
    report.failure = .referenceDirNotFound "/nope" ∧ report.Shows "Run failed" ∧
      ¬ report.Shows "Failed to generate metadata" := by
  obtain ⟨hfailure, -, -, houter, hreport, -⟩ := contexts_shown
    ["Run failed", "Failed to generate metadata"] (.referenceDirNotFound "/nope")
  refine ⟨hfailure, houter _ rfl, ?_⟩
  rw [hreport]
  decide +kernel

end Report
end RefManifest
