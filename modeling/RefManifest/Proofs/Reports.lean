import RefManifest.Proofs.Filing

/-!
# RefManifest.Proofs.Reports

What a whole generation reports, next to how it ends.

A generation that finds no reference directory, or cannot walk it, ends before a template is read
(`generate_cases`). All others file the templates that were found. Such a run goes on to its end or
to a template that cannot be read or named (`build_goes_on`), or it is strict and ends at a
conflict (`build_ends`).

* `build_ok`, `build_error`: what the result of a run tells of its templates.
* `FirstConflict`: the template at which a run first meets a conflict, in either mode.
* `generate_reports`: the reports of a run, for each way it can end.
-/

namespace RefManifest
namespace Generation

open Disk Notice Hierarchy

variable {fs : FileSystem} {s : Settings} {place : List Name} {ts : List Template} {t : Template}
  {r : Record} {f : Failure} {more : List Record}

/-- The reference directory is at `place`, and `ts` are the templates below it. -/
structure Found (fs : FileSystem) (s : Settings) (place : List Name) (ts : List Template) :
    Prop where
  located : locate fs s.referenceDir = .ok place
  listed : (Discovery.discover fs (Path.ofRoot place) s.excludes
    (canonicalSkips fs s.skipPaths)).result = .ok ts

theorem Found.unique {place' : List Name} {ts' : List Template} (h : Found fs s place ts)
    (h' : Found fs s place' ts') : place' = place ∧ ts' = ts := by
  have hplace := h.located
  rw [h'.located] at hplace
  cases hplace
  have hts := h.listed
  rw [h'.listed] at hts
  cases hts
  exact ⟨rfl, rfl⟩

/-- What is told before the first template is read. -/
def preamble (fs : FileSystem) (s : Settings) (place : List Name) (count : Nat) : List Notice :=
  (Discovery.discover fs (Path.ofRoot place) s.excludes (canonicalSkips fs s.skipPaths)).notices ++
    [discoveredNotice count (Path.ofRoot place)]

theorem reports_discover (base : Path) (excludes : Excludes) (skips : List Path) :
    reports (Discovery.discover fs base excludes skips).notices = [] := by
  have hquiet : ∀ found : List Template,
      reports (found.filterMap (Discovery.rejection? base excludes skips)) = [] := by
    intro found
    rw [reports, List.filter_eq_nil_iff]
    intro n hn
    obtain ⟨x, -, hx⟩ := List.mem_filterMap.1 hn
    unfold Discovery.rejection? at hx
    split at hx
    · cases hx
      simp [Discovery.skipNotice, isReport]
    · split at hx
      · cases hx
        simp [Discovery.excludeNotice, isReport]
      · cases hx
  unfold Discovery.discover
  split <;> exact hquiet _

theorem gather_failure (base : Path) (l : List (List Name × Node))
    (h : (Discovery.gather base l).2 = some f) : ∃ path reason, f = .directoryWalk path reason := by
  induction l with
  | nil => cases h
  | cons e l ih =>
    obtain ⟨names, x⟩ := e
    cases x with
    | file c => exact ih h
    | link target => exact ih h
    | dir es =>
      rw [Discovery.gather] at h
      split at h
      · cases h
        exact ⟨_, _, rfl⟩
      · exact ih h

theorem walk_failure (base : Path) (h : (Discovery.walk fs base).2 = some f) :
    ∃ path reason, f = .directoryWalk path reason := by
  unfold Discovery.walk at h
  split at h
  · cases h
    exact ⟨_, _, rfl⟩
  · split at h
    · cases h
      exact ⟨_, _, rfl⟩
    · split at h
      · exact gather_failure _ _ h
      · cases h
  · exact gather_failure _ _ h

theorem discover_failure {base : Path} {excludes : Excludes} {skips : List Path}
    (h : (Discovery.discover fs base excludes skips).result = .error f) :
    ∃ path reason, f = .directoryWalk path reason := by
  unfold Discovery.discover at h
  split at h
  · rename_i found f' hwalk
    cases h
    exact walk_failure base (by rw [hwalk])
  · cases h

theorem locate_failure {dir : Path} (h : locate fs dir = .error f) :
    f = .referenceDirNotFound dir.display := by
  unfold locate at h
  split at h
  · split at h
    · cases h
    · cases h
      rfl
  · cases h
    rfl

theorem generate_of_found (h : Found fs s place ts) :
    generate fs s = Traced.after (preamble fs s place ts.length) (build s place ts) := by
  have hlisted := h.listed
  unfold generate
  simp only [h.located, preamble]
  cases hfound : Discovery.discover fs (Path.ofRoot place) s.excludes
      (canonicalSkips fs s.skipPaths) with
  | mk ns result =>
    rw [hfound] at hlisted
    cases hlisted
    rfl

/-- How far a generation gets: it does not find the directory, or it cannot walk it, or it has
the templates. -/
theorem generate_cases (fs : FileSystem) (s : Settings) :
    generate fs s = .error (.referenceDirNotFound s.referenceDir.display) ∨
    (∃ logs path reason, reports logs = [] ∧
      generate fs s = ⟨logs ++ [.fatal (Failure.directoryWalk path reason).message],
        .error (.directoryWalk path reason)⟩) ∨
    ∃ place ts, Found fs s place ts := by
  cases hlocate : locate fs s.referenceDir with
  | error f =>
    have hf := locate_failure hlocate
    exact .inl (by simp only [generate, hlocate, hf])
  | ok place =>
    refine .inr ?_
    have hquiet := @reports_discover fs (Path.ofRoot place) s.excludes
      (canonicalSkips fs s.skipPaths)
    cases hfound : Discovery.discover fs (Path.ofRoot place) s.excludes
        (canonicalSkips fs s.skipPaths) with
    | mk ns result =>
      rw [hfound] at hquiet
      cases result with
      | error f =>
        obtain ⟨path, reason, rfl⟩ := discover_failure (by rw [hfound])
        exact .inl ⟨ns, path, reason, hquiet, by simp only [generate, hlocate, hfound]⟩
      | ok ts => exact .inr ⟨place, ts, hlocate, by rw [hfound]⟩

theorem found_of_result {x : Except Failure Generated} (h : (generate fs s).result = x)
    (hdir : ∀ path, x ≠ .error (.referenceDirNotFound path))
    (hwalk : ∀ path reason, x ≠ .error (.directoryWalk path reason)) :
    ∃ place ts, Found fs s place ts ∧ (build s place ts).result = x := by
  rcases generate_cases fs s with hrun | ⟨logs, path, reason, -, hrun⟩ | ⟨place, ts, hfound⟩
  · rw [hrun] at h
    exact absurd h.symm (hdir _)
  · rw [hrun] at h
    exact absurd h.symm (hwalk _ _)
  · rw [generate_of_found hfound] at h
    exact ⟨place, ts, hfound, h⟩

/-- The template `t` is the first whose record `r` contradicts what was declared before: the
templates before it are read and named, and their records contest nothing. -/
def FirstConflict (fs : FileSystem) (s : Settings) (t : Template) (r : Record) : Prop :=
  ∃ place front back before, Found fs s place (front ++ t :: back) ∧
    readings place front = (before, none) ∧ contestedPlaces before = [] ∧
    (readRecord place t).result = .ok r ∧ StartsConflict before r

theorem firstConflict_of_starting (h : Found fs s place ts)
    (hstarts : starting [] (readings place ts).1 = r :: more) :
    ∃ t, FirstConflict fs s t r ∧ r.id = t.id := by
  obtain ⟨before, back, hsplit, hnone, hr⟩ := starting_eq_cons hstarts
  obtain ⟨front, t, rest, rfl, hfront, hread⟩ := readings_eq_append hsplit
  refine ⟨t, ⟨place, front, rest, before, h, hfront, ?_, hread, hr⟩, ?_⟩
  · exact starting_eq_nil.1 hnone
  · exact (reports_of_readRecord_ok hread).2

/-! ## The run -/

/-- What is generated from the hierarchy at the end. -/
def generatedFrom (s : Settings) (filed : Hierarchy) : Generated :=
  ⟨filed.finish, filed.finish.render s.format, filed.errorCount⟩

theorem build_result (s : Settings) (place : List Name) (ts : List Template) :
    (build s place ts).result =
      (fileAll place (feed s.exitOnError []) ts).result.map (generatedFrom s) := by
  simp only [build, feed, List.foldl_nil]
  cases (fileAll place (start s.exitOnError) ts).result <;> rfl

theorem reports_build (s : Settings) (place : List Name) (ts : List Template) :
    reports (build s place ts).notices =
      reports (fileAll place (feed s.exitOnError []) ts).notices := by
  simp only [build, feed, List.foldl_nil]
  cases (fileAll place (start s.exitOnError) ts).result with
  | error f => rfl
  | ok filed =>
    rw [reports_append]
    exact List.append_nil _

/-- In another format the same is built, and printed in that format. -/
theorem build_reformat {s' : Settings} (hstrict : s'.exitOnError = s.exitOnError) {g : Generated}
    (h : (build s place ts).result = .ok g) :
    (build s' place ts).result = .ok { g with rendered := g.manifest.render s'.format } := by
  rw [build_result] at h ⊢
  rw [hstrict]
  cases hfiled : (fileAll place (feed s.exitOnError []) ts).result with
  | error f =>
    rw [hfiled] at h
    cases h
  | ok filed =>
    rw [hfiled] at h
    cases h
    rfl

theorem build_goes_on (place : List Name) {ts : List Template}
    (h : s.exitOnError = true → starting [] (readings place ts).1 = []) :
    (build s place ts).result =
        (ending (readings place ts).2 (feed s.exitOnError (readings place ts).1)).map
          (generatedFrom s) ∧
      reports (build s place ts).notices =
        (starting [] (readings place ts).1).map (fun r => .error (conflictMessage r)) ++
          stopReports (readings place ts).2 := by
  obtain ⟨hresult, hreports⟩ := fileAll_goes_on h
  rw [build_result, reports_build, hresult, hreports]
  exact ⟨rfl, rfl⟩

theorem build_ends (hmode : s.exitOnError = true)
    (h : starting [] (readings place ts).1 = r :: more) :
    (build s place ts).result = .error (conflictOf r) ∧
      reports (build s place ts).notices = [.fatal (conflictMessage r)] := by
  obtain ⟨hresult, hreports⟩ := fileAll_ends h
  rw [build_result, reports_build, hmode, hresult, hreports]
  exact ⟨rfl, rfl⟩

/-- A run goes on to its end or to the failure of a template, or it is strict and meets a
conflict. -/
theorem goes_on_or_ends (s : Settings) (rs : List Record) :
    (s.exitOnError = true → starting [] rs = []) ∨
      s.exitOnError = true ∧ ∃ r more, starting [] rs = r :: more := by
  cases hstarts : starting [] rs with
  | nil => exact .inl fun _ => rfl
  | cons r more =>
    cases hmode : s.exitOnError with
    | false => exact .inl fun e => nomatch e
    | true => exact .inr ⟨rfl, r, more, rfl⟩

/-- A run that succeeds has read and named every template, and met no conflict if it is strict. -/
theorem build_ok {g : Generated} (h : (build s place ts).result = .ok g) :
    (s.exitOnError = true → starting [] (readings place ts).1 = []) ∧
      (readings place ts).2 = none ∧
      g = generatedFrom s (feed s.exitOnError (readings place ts).1) := by
  rcases goes_on_or_ends s (readings place ts).1 with hgo | ⟨hmode, r, more, hstarts⟩
  · rw [(build_goes_on place hgo).1] at h
    cases hstop : (readings place ts).2 with
    | some f =>
      rw [hstop] at h
      cases h
    | none =>
      rw [hstop] at h
      cases h
      exact ⟨hgo, rfl, rfl⟩
  · rw [(build_ends hmode hstarts).1] at h
    cases h

/-- A run that fails has come to a template that cannot be read or named, or it is strict and has
met a conflict. -/
theorem build_error (h : (build s place ts).result = .error f) :
    (s.exitOnError = true → starting [] (readings place ts).1 = []) ∧
        (readings place ts).2 = some f ∨
      s.exitOnError = true ∧
        ∃ r more, starting [] (readings place ts).1 = r :: more ∧ f = conflictOf r := by
  rcases goes_on_or_ends s (readings place ts).1 with hgo | ⟨hmode, r, more, hstarts⟩
  · rw [(build_goes_on place hgo).1] at h
    cases hstop : (readings place ts).2 with
    | none =>
      rw [hstop] at h
      cases h
    | some f' =>
      rw [hstop] at h
      cases h
      exact .inl ⟨hgo, rfl⟩
  · rw [(build_ends hmode hstarts).1] at h
    cases h
    exact .inr ⟨hmode, r, more, hstarts, rfl⟩

theorem errors_of_goes_on (place : List Name) {ts : List Template}
    (h : s.exitOnError = true → starting [] (readings place ts).1 = []) :
    ∃ errors : List String,
      reports (build s place ts).notices =
        errors.map .error ++ stopReports (readings place ts).2 ∧
      errors.length = (starting [] (readings place ts).1).length ∧
      (s.exitOnError = true → errors = []) := by
  refine ⟨(starting [] (readings place ts).1).map conflictMessage, ?_, List.length_map .., ?_⟩
  · rw [(build_goes_on place h).2, List.map_map]
    rfl
  · intro e
    rw [h e, List.map_nil]

theorem reports_of_build_ok {g : Generated} (h : (build s place ts).result = .ok g) :
    ∃ errors : List String, reports (build s place ts).notices = errors.map .error ∧
      errors.length = g.errorCount ∧ (s.exitOnError = true → errors = []) := by
  obtain ⟨hgo, hnone, rfl⟩ := build_ok h
  obtain ⟨errors, hreports, hlen, hstrict⟩ := errors_of_goes_on place hgo
  rw [hnone, stopReports, Option.toList_none, List.map_nil, List.append_nil] at hreports
  exact ⟨errors, hreports, hlen.trans (errorCount_of_starting hgo).symm, hstrict⟩

theorem reports_of_build_error (hfound : Found fs s place ts)
    (h : (build s place ts).result = .error f) :
    (((∃ path reason, f = .templateRead path reason) ∨
        ∃ path axis ancestor, f = .unresolvableName path axis ancestor) ∧
      ∃ errors : List String,
        reports (build s place ts).notices = errors.map .error ++ [.fatal f.message] ∧
        (s.exitOnError = true → errors = [])) ∨
    ∃ t r, f = conflictOf r ∧ s.exitOnError = true ∧ FirstConflict fs s t r ∧ r.id = t.id ∧
      reports (build s place ts).notices = [.fatal (conflictMessage r)] := by
  rcases build_error h with ⟨hgo, hstop⟩ | ⟨hmode, r, more, hstarts, rfl⟩
  · obtain ⟨errors, hreports, -, hstrict⟩ := errors_of_goes_on place hgo
    rw [hstop] at hreports
    exact .inl ⟨readings_failure hstop, errors, hreports, hstrict⟩
  · obtain ⟨t, hfirst, hid⟩ := firstConflict_of_starting hfound hstarts
    exact .inr ⟨t, r, rfl, hmode, hfirst, hid, (build_ends hmode hstarts).2⟩

theorem reports_preamble (fs : FileSystem) (s : Settings) (place : List Name) (count : Nat) :
    reports (preamble fs s place count) = [] := by
  rw [preamble, reports_append_of_quiet (reports_discover ..)]
  rfl

/-- The reports of a run, for each way it can end. A run that succeeds has reported errors only, as
many as it counts, and a strict run none. Without a reference directory nothing is reported. A walk
that fails, and a template that cannot be read or named, is reported once, as fatal and as the last
thing, after the errors of a run that is not strict. A conflict ends a strict run only; the fatal
report names the template at which it is met first, and it is the only report. -/
theorem generate_reports (fs : FileSystem) (s : Settings) :
    let run := generate fs s
    (∀ g, run.result = .ok g →
      ∃ errors : List String, reports run.notices = errors.map .error ∧
        errors.length = g.errorCount ∧ (s.exitOnError = true → errors = [])) ∧
    ∀ f, run.result = .error f →
      (∃ path, f = .referenceDirNotFound path ∧ reports run.notices = []) ∨
      (((∃ path reason, f = .directoryWalk path reason) ∨
          (∃ path reason, f = .templateRead path reason) ∨
          ∃ path axis ancestor, f = .unresolvableName path axis ancestor) ∧
        ∃ errors : List String, reports run.notices = errors.map .error ++ [.fatal f.message] ∧
          (s.exitOnError = true → errors = [])) ∨
      ∃ t r, f = .conflictingStatus r.part r.component ∧ s.exitOnError = true ∧
        FirstConflict fs s t r ∧
        reports run.notices =
          [.fatal (f.message ++ " (contradicting directive in " ++ t.id ++ ")")] := by
  intro run
  have hcases := generate_cases fs s
  have hgenerate : ∀ place ts, Found fs s place ts →
      run = Traced.after (preamble fs s place ts.length) (build s place ts) :=
    fun place ts => generate_of_found
  rw [show generate fs s = run from rfl] at hcases
  clear_value run
  rcases hcases with rfl | ⟨logs, path, reason, hquiet, rfl⟩ | ⟨place, ts, hfound⟩
  · refine ⟨fun g hg => ?_, fun f hf => .inl ⟨s.referenceDir.display, ?_, rfl⟩⟩
    · cases hg
    · cases hf
      rfl
  · refine ⟨fun g hg => ?_, fun f hf => .inr (.inl ?_)⟩
    · cases hg
    · cases hf
      exact ⟨.inl ⟨path, reason, rfl⟩, [], reports_append_of_quiet hquiet _, fun _ => rfl⟩
  · cases hgenerate place ts hfound
    have hreports := reports_append_of_quiet
      (reports_preamble fs s place ts.length) (build s place ts).notices
    simp only [Traced.after, hreports]
    refine ⟨fun g hg => reports_of_build_ok hg, fun f hf => .inr ?_⟩
    rcases reports_of_build_error hfound hf with ⟨hkind, herrors⟩ |
      ⟨t, r, rfl, hmode, hfirst, hid, htold⟩
    · exact .inl ⟨.inr hkind, herrors⟩
    · refine .inr ⟨t, r, rfl, hmode, hfirst, ?_⟩
      rw [htold, conflictMessage, hid]

end Generation
end RefManifest
