import RefManifest.Proofs.Reports

/-!
# RefManifest.Proofs.Modes

The two modes of a generation, run by run.

Both runs find the same directory and the same templates, and file them in step until a record
starts a conflict. If none does, the runs are equal (`build_in_step`). Otherwise the strict run
ends there, however the other one goes on, and its fatal report is the first error of the other.
-/

namespace RefManifest
namespace Generation

open Disk Notice Hierarchy

variable {fs : FileSystem} {s s' : Settings} {place : List Name} {ts : List Template}
  {rs : List Record}

theorem generatedFrom_in_step (hformat : s'.format = s.format) (h : starting [] rs = []) :
    generatedFrom s' (feed true rs) = generatedFrom s (feed false rs) := by
  have hparts : (feed true rs).finish = (feed false rs).finish := by
    rw [finish, finish, feed_parts, feed_parts]
  have hcount : (feed true rs).errorCount = (feed false rs).errorCount := by
    rw [errorCount_of_starting fun _ => h, errorCount_of_starting fun _ => h]
  rw [generatedFrom, generatedFrom, hparts, hcount, hformat]

theorem notices_build (s : Settings) (place : List Name) (ts : List Template) :
    (build s place ts).notices =
      (fileAll place (feed s.exitOnError []) ts).notices ++
        ((build s place ts).result.toOption.map fun g => generatedNotice g.manifest).toList := by
  simp only [build, feed, List.foldl_nil]
  cases (fileAll place (start s.exitOnError) ts).result with
  | error f => exact (List.append_nil _).symm
  | ok filed => rfl

/-- Without conflicts the two runs over the templates are equal. -/
theorem build_in_step (hformat : s'.format = s.format) (hstrict : s'.exitOnError = true)
    (hlenient : s.exitOnError = false) (h : starting [] (readings place ts).1 = []) :
    build s' place ts = build s place ts := by
  have hresult : (build s' place ts).result = (build s place ts).result := by
    rw [(build_goes_on place fun _ => h).1, (build_goes_on place fun _ => h).1, hstrict, hlenient]
    cases (readings place ts).2 with
    | some f => rfl
    | none => exact congrArg Except.ok (generatedFrom_in_step hformat h)
  have hnotices : (build s' place ts).notices = (build s place ts).notices := by
    rw [notices_build, notices_build, hresult, hstrict, hlenient, fileAll_in_step h]
  exact Traced.ext hnotices hresult

/-- The settings `s` in the given mode. -/
def inMode (strict : Bool) (s : Settings) : Settings := { s with exitOnError := strict }

theorem found_inMode (strict : Bool) :
    Found fs (inMode strict s) place ts ↔ Found fs s place ts :=
  ⟨fun h => ⟨h.located, h.listed⟩, fun h => ⟨h.located, h.listed⟩⟩

/-- The mode matters only once templates have been found. -/
theorem generate_inMode (hbuild : ∀ place ts, Found fs s place ts →
      build (inMode true s) place ts = build (inMode false s) place ts) :
    generate fs (inMode true s) = generate fs (inMode false s) := by
  unfold generate
  cases hlocate : locate fs s.referenceDir with
  | error f => simp only [inMode, hlocate]
  | ok place =>
    cases hfound : Discovery.discover fs (Path.ofRoot place) s.excludes
        (canonicalSkips fs s.skipPaths) with
    | mk ns result =>
      cases result with
      | error f => simp only [inMode, hlocate, hfound]
      | ok ts =>
        have hsame := hbuild place ts ⟨hlocate, by rw [hfound]⟩
        simp only [inMode] at hsame
        simp only [inMode, hlocate, hfound, hsame]

theorem errors_of_found (hlenient : s.exitOnError = false) (h : Found fs s place ts) :
    errors (generate fs s).notices = (starting [] (readings place ts).1).map conflictMessage := by
  have hgo : s.exitOnError = true → starting [] (readings place ts).1 = [] := fun e => by
    rw [hlenient] at e
    cases e
  have hstop : errors (stopReports (readings place ts).2) = [] := by
    cases (readings place ts).2 <;> rfl
  have hmap : (starting [] (readings place ts).1).map (fun r => Notice.error (conflictMessage r)) =
      ((starting [] (readings place ts).1).map conflictMessage).map .error := by
    rw [List.map_map]
    rfl
  rw [generate_of_found h, Traced.after, ← errors_reports,
    reports_append_of_quiet (reports_preamble ..), (build_goes_on place hgo).2, errors_append, hmap,
    errors_map_error, hstop, List.append_nil]

theorem errors_of_not_found (h : ¬ ∃ place ts, Found fs s place ts) :
    errors (generate fs s).notices = [] := by
  rcases generate_cases fs s with hrun | ⟨logs, path, reason, hquiet, hrun⟩ | hfound
  · rw [hrun]
    rfl
  · rw [hrun, ← errors_reports, reports_append_of_quiet hquiet]
    rfl
  · exact absurd hfound h

/-- The two modes of a run. If the run that goes on past conflicts has reported no error, the
strict one is the same run. If its first error is `m`, then however it ends the strict run ends at
the conflict that `m` tells of, the first there is, and reports nothing but `m`, as fatal. -/
theorem modes_agree (fs : FileSystem) (s : Settings) :
    let lenient := generate fs (inMode false s)
    let strict := generate fs (inMode true s)
    (errors lenient.notices = [] → strict = lenient) ∧
    ∀ m more, errors lenient.notices = m :: more →
      ∃ t r, FirstConflict fs s t r ∧ m = conflictMessage r ∧
        strict.result = .error (.conflictingStatus r.part r.component) ∧
        reports strict.notices = [.fatal m] := by
  intro lenient strict
  by_cases hfound : ∃ place ts, Found fs s place ts
  · obtain ⟨place, ts, h⟩ := hfound
    have herrors : errors lenient.notices = _ := errors_of_found rfl (found_inMode false |>.2 h)
    have hstrict : strict = _ := generate_of_found (found_inMode true |>.2 h)
    rw [herrors]
    refine ⟨fun hnone => ?_, fun m more hfirst => ?_⟩
    · refine generate_inMode fun place' ts' h' => ?_
      obtain ⟨rfl, rfl⟩ := h.unique h'
      exact build_in_step rfl rfl rfl (List.map_eq_nil_iff.1 hnone)
    · obtain ⟨r, rest, hstarts, rfl, -⟩ := List.map_eq_cons_iff.1 hfirst
      obtain ⟨hresult, hreports⟩ := @build_ends (inMode true s) _ _ _ _ rfl hstarts
      obtain ⟨t, hconflict, -⟩ := firstConflict_of_starting h hstarts
      refine ⟨t, r, hconflict, rfl, ?_, ?_⟩
      · rw [hstrict]
        exact hresult
      · rw [hstrict, Traced.after, reports_append_of_quiet (reports_preamble ..), hreports]
  · have hlost : ¬ ∃ place ts, Found fs (inMode false s) place ts := by
      rintro ⟨place, ts, h⟩
      exact hfound ⟨place, ts, (found_inMode false).1 h⟩
    rw [errors_of_not_found hlost]
    refine ⟨fun _ => generate_inMode fun place ts h => absurd ⟨place, ts, h⟩ hfound, ?_⟩
    intro m more hfirst
    cases hfirst

end Generation
end RefManifest
