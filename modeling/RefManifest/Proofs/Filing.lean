import RefManifest.Proofs.Generation
import RefManifest.Proofs.Hierarchy.Conflict

/-!
# RefManifest.Proofs.Filing

What a run reports while it files its templates, in either mode.

The two modes differ in one step only, the one that files a record which starts a conflict. So a
run is described by two things that know nothing of the mode: `readings`, the records of the
templates up to the first one that cannot be read or named, and `Hierarchy.starting`, those of the
records that start a conflict.

* `fileAll_cons_error`, `fileAll_cons_quiet`, `fileAll_cons_lenient`, `fileAll_cons_strict`: what
  one step does, a case for each way it can go.
* `fileAll_goes_on`: a run that does not end at a conflict reports each of them as an error, and
  the failure that ends it, if there is one, as fatal.
* `fileAll_ends`: a strict run ends at the first conflict.
* `fileAll_in_step`: without conflicts the runs in the two modes tell the same.
-/

namespace RefManifest

open Disk

namespace Notice

/-- The notices that go to whoever asked for the run. -/
def reports (ns : List Notice) : List Notice := ns.filter isReport

theorem reports_append (a b : List Notice) : reports (a ++ b) = reports a ++ reports b :=
  List.filter_append ..

/-- A list without reports in front changes nothing. -/
theorem reports_append_of_quiet {a : List Notice} (h : reports a = []) (b : List Notice) :
    reports (a ++ b) = reports b := by
  rw [reports_append, h, List.nil_append]

theorem errors_reports (ns : List Notice) : errors (reports ns) = errors ns := by
  rw [errors, reports, List.filterMap_filter]
  refine List.filterMap_congr fun n _ => ?_
  cases n <;> rfl

theorem errors_append (a b : List Notice) : errors (a ++ b) = errors a ++ errors b :=
  List.filterMap_append ..

theorem errors_map_error (ms : List String) : errors (ms.map .error) = ms := by
  rw [errors, List.filterMap_map]
  exact List.filterMap_some

end Notice

open Notice

namespace Directives

theorem reports_keepFirst (path : String) (axis : NameAxis) (slot : Option String)
    (name : String) : reports (keepFirst path axis slot name).2 = [] := by
  unfold keepFirst
  split
  · rfl
  · split <;> rfl

theorem reports_apply (path : String) (d : Directives) (x : Directive) :
    reports (d.apply path x).2 = [] := by
  cases x with
  | part name => exact reports_keepFirst ..
  | component name => exact reports_keepFirst ..
  | componentRequirement q => cases q <;> rfl
  | templateRequirement q =>
    simp only [apply]
    split
    · rfl
    · split <;> rfl

theorem reports_applyAll (path : String) (d : Directives) (xs : List Directive) :
    reports (applyAll path d xs).2 = [] := by
  induction xs generalizing d with
  | nil => rfl
  | cons x xs ih => rw [applyAll, reports_append, reports_apply, ih, List.nil_append]

theorem reports_extract (path : Path) (content : List Char) :
    reports (extract path content).2 = [] :=
  reports_applyAll ..

end Directives

namespace Hierarchy

instance (before : List Record) (r : Record) : Decidable (StartsConflict before r) :=
  inferInstanceAs (Decidable (_ ∧ _))

/-- Those of the records that start a conflict when they are added after `before`. -/
def starting (before : List Record) : List Record → List Record
  | [] => []
  | r :: rest =>
    if StartsConflict before r then r :: starting (before ++ [r]) rest
    else starting (before ++ [r]) rest

/-- Every conflict that is started contests one more place. -/
theorem length_starting (before rs : List Record) :
    (contestedPlaces (before ++ rs)).length =
      (contestedPlaces before).length + (starting before rs).length := by
  induction rs generalizing before with
  | nil => simp [starting]
  | cons r rest ih =>
    have hnext := ih (before ++ [r])
    rw [List.append_assoc, List.singleton_append] at hnext
    rw [hnext, starting]
    split
    · rename_i h
      rw [contestedPlaces_of_starts h, List.length_cons]
      omega
    · rename_i h
      rw [contestedPlaces_of_not_starts h]

theorem starting_eq_nil {rs : List Record} : starting [] rs = [] ↔ contestedPlaces rs = [] := by
  have hlen := length_starting [] rs
  have hempty : contestedPlaces [] = [] := rfl
  rw [List.nil_append, hempty, List.length_nil, Nat.zero_add] at hlen
  rw [← List.length_eq_zero_iff, ← List.length_eq_zero_iff, hlen]

theorem starting_eq_cons {before rs more : List Record} {r : Record}
    (h : starting before rs = r :: more) :
    ∃ front back, rs = front ++ r :: back ∧ starting before front = [] ∧
      StartsConflict (before ++ front) r := by
  induction rs generalizing before with
  | nil => cases h
  | cons x rest ih =>
    rw [starting] at h
    split at h
    · rename_i hstarts
      cases h
      exact ⟨[], rest, rfl, rfl, by rwa [List.append_nil]⟩
    · rename_i hnot
      obtain ⟨front, back, rfl, hnone, hstarts⟩ := ih h
      refine ⟨x :: front, back, rfl, ?_, ?_⟩
      · rw [starting, if_neg hnot, hnone]
      · simpa using hstarts

end Hierarchy

namespace Generation

open Hierarchy

variable {place : List Name} {t : Template} {ts : List Template} {r : Record} {f : Failure}
  {before rs more : List Record}

/-- The directives of the template. -/
def directivesOf (t : Template) : Directives :=
  (Directives.extract t.path (Text.ofFile t.content).toList).1

def warningsOf (t : Template) : List Notice :=
  (Directives.extract t.path (Text.ofFile t.content).toList).2

/-- The names that the template is filed under. -/
def namesOf (place : List Name) (t : Template) : Except Failure Names :=
  Names.resolve (namingPath place.getLast? t) (directivesOf t).part (directivesOf t).component

/-- The path of the template can be handed to the system. -/
def Readable (place : List Name) (t : Template) : Prop :=
  (t.pathFrom (Path.ofRoot place)).isTooLong = false

theorem readRecord_of_not_readable (h : ¬ Readable place t) :
    readRecord place t =
      ⟨[.fatal (readFailure (t.pathFrom (Path.ofRoot place))).message],
        .error (readFailure (t.pathFrom (Path.ofRoot place)))⟩ := by
  rw [Readable, Bool.not_eq_false] at h
  simp only [readRecord, h, if_true]

theorem readRecord_of_unnamed (h : Readable place t) (hnames : namesOf place t = .error f) :
    readRecord place t = ⟨warningsOf t ++ [.fatal f.message], .error f⟩ := by
  rw [Readable] at h
  rw [namesOf, directivesOf] at hnames
  simp only [readRecord, h, Bool.false_eq_true, if_false, hnames, warningsOf]

theorem readRecord_of_named {names : Names} (h : Readable place t)
    (hnames : namesOf place t = .ok names) :
    readRecord place t =
      ⟨warningsOf t, .ok ⟨t.id, names.part, names.component, directivesOf t⟩⟩ := by
  rw [Readable] at h
  rw [namesOf, directivesOf] at hnames
  simp only [readRecord, h, Bool.false_eq_true, if_false, hnames, warningsOf, directivesOf]

/-- What a template consists of that is read and named. -/
theorem readRecord_ok (h : (readRecord place t).result = .ok r) :
    Readable place t ∧ ∃ names, namesOf place t = .ok names ∧
      r = ⟨t.id, names.part, names.component, directivesOf t⟩ := by
  by_cases hread : Readable place t
  · cases hnames : namesOf place t with
    | error f =>
      rw [readRecord_of_unnamed hread hnames] at h
      cases h
    | ok names =>
      rw [readRecord_of_named hread hnames] at h
      cases h
      exact ⟨hread, names, rfl, rfl⟩
  · rw [readRecord_of_not_readable hread] at h
    cases h

theorem reports_of_readRecord_error (h : (readRecord place t).result = .error f) :
    reports (readRecord place t).notices = [.fatal f.message] := by
  by_cases hread : Readable place t
  · cases hnames : namesOf place t with
    | error f' =>
      rw [readRecord_of_unnamed hread hnames] at h ⊢
      cases h
      exact reports_append_of_quiet (Directives.reports_extract ..) _
    | ok names =>
      rw [readRecord_of_named hread hnames] at h
      cases h
  · rw [readRecord_of_not_readable hread] at h ⊢
    cases h
    rfl

theorem reports_of_readRecord_ok (h : (readRecord place t).result = .ok r) :
    reports (readRecord place t).notices = [] ∧ r.id = t.id := by
  obtain ⟨hread, names, hnames, rfl⟩ := readRecord_ok h
  rw [readRecord_of_named hread hnames]
  exact ⟨Directives.reports_extract .., rfl⟩

theorem namesOf_failure (h : namesOf place t = .error f) :
    ∃ path axis ancestor, f = .unresolvableName path axis ancestor := by
  simp only [namesOf, Names.resolve] at h
  split at h
  · cases h
    exact ⟨_, _, _, rfl⟩
  · split at h
    · cases h
      exact ⟨_, _, _, rfl⟩
    · cases h

theorem readRecord_failure (h : (readRecord place t).result = .error f) :
    (∃ path reason, f = .templateRead path reason) ∨
      ∃ path axis ancestor, f = .unresolvableName path axis ancestor := by
  by_cases hread : Readable place t
  · cases hnames : namesOf place t with
    | error f' =>
      rw [readRecord_of_unnamed hread hnames] at h
      cases h
      exact .inr (namesOf_failure hnames)
    | ok names =>
      rw [readRecord_of_named hread hnames] at h
      cases h
  · rw [readRecord_of_not_readable hread] at h
    cases h
    exact .inl ⟨_, _, rfl⟩

/-- The records of the templates up to the first one that cannot be read or named, and why not. -/
def readings (place : List Name) : List Template → List Record × Option Failure
  | [] => ([], none)
  | t :: rest =>
    match (readRecord place t).result with
    | .error f => ([], some f)
    | .ok r => (r :: (readings place rest).1, (readings place rest).2)

theorem readings_cons_error (h : (readRecord place t).result = .error f) :
    readings place (t :: ts) = ([], some f) := by
  rw [readings, h]

theorem readings_cons_ok (h : (readRecord place t).result = .ok r) :
    readings place (t :: ts) = (r :: (readings place ts).1, (readings place ts).2) := by
  rw [readings, h]

theorem readings_failure (h : (readings place ts).2 = some f) :
    (∃ path reason, f = .templateRead path reason) ∨
      ∃ path axis ancestor, f = .unresolvableName path axis ancestor := by
  induction ts with
  | nil => cases h
  | cons x ts ih =>
    cases hread : (readRecord place x).result with
    | error f' =>
      rw [readings_cons_error hread] at h
      cases h
      exact readRecord_failure hread
    | ok y =>
      rw [readings_cons_ok hread] at h
      exact ih h

/-- If no template stops the readings, each could be read, and the records bear their paths. -/
theorem readings_eq_none (h : (readings place ts).2 = none) :
    (∀ t ∈ ts, Readable place t) ∧ (readings place ts).1.map (·.id) = ts.map Template.id := by
  induction ts with
  | nil => exact ⟨fun _ ht => absurd ht List.not_mem_nil, rfl⟩
  | cons t ts ih =>
    cases hread : (readRecord place t).result with
    | error f =>
      rw [readings_cons_error hread] at h
      cases h
    | ok r =>
      rw [readings_cons_ok hread] at h ⊢
      obtain ⟨hall, hids⟩ := ih h
      refine ⟨List.forall_mem_cons.2 ⟨(readRecord_ok hread).1, hall⟩, ?_⟩
      rw [List.map_cons, List.map_cons, hids, (reports_of_readRecord_ok hread).2]

theorem readings_eq_append {front back : List Record}
    (h : (readings place ts).1 = front ++ r :: back) :
    ∃ a t b, ts = a ++ t :: b ∧ readings place a = (front, none) ∧
      (readRecord place t).result = .ok r := by
  induction ts generalizing front with
  | nil => simp [readings] at h
  | cons x ts ih =>
    cases hread : (readRecord place x).result with
    | error f => simp [readings_cons_error hread] at h
    | ok y =>
      rw [readings_cons_ok hread] at h
      cases front with
      | nil =>
        cases h
        exact ⟨[], x, ts, rfl, rfl, hread⟩
      | cons z front =>
        simp only [List.cons_append, List.cons.injEq] at h
        obtain ⟨rfl, hrest⟩ := h
        obtain ⟨a, t, b, rfl, hfront, hr⟩ := ih hrest
        exact ⟨x :: a, t, b, rfl, by rw [readings_cons_ok hread, hfront], hr⟩

/-- All templates are read and named, if `named` says which of them can be and `record` how. -/
theorem readings_eq_ok {named : Template → Prop} {record : Template → Record}
    (h : ∀ t ∈ ts, ∀ r, (readRecord place t).result = .ok r ↔ named t ∧ r = record t) :
    readings place ts = (rs, none) ↔ (∀ t ∈ ts, named t) ∧ rs = ts.map record := by
  induction ts generalizing rs with
  | nil => simp [readings, eq_comm]
  | cons t ts ih =>
    have hhead := h t (List.mem_cons_self ..)
    have hrest : ∀ x ∈ ts, ∀ r, (readRecord place x).result = .ok r ↔ named x ∧ r = record x :=
      fun x hx => h x (List.mem_cons_of_mem _ hx)
    cases hread : (readRecord place t).result with
    | error f =>
      have hnot : ¬ named t := fun hnamed => by
        rw [(hhead _).2 ⟨hnamed, rfl⟩] at hread
        cases hread
      simp [readings_cons_error hread, hnot]
    | ok r =>
      obtain ⟨hnamed, rfl⟩ := (hhead r).1 hread
      rw [readings_cons_ok hread, List.forall_mem_cons, List.map_cons]
      constructor
      · intro e
        obtain ⟨rfl, hnone⟩ := Prod.mk.inj e
        obtain ⟨hall, hmap⟩ := (ih hrest).1 (Prod.ext rfl hnone)
        exact ⟨⟨hnamed, hall⟩, congrArg _ hmap⟩
      · rintro ⟨⟨-, hall⟩, rfl⟩
        rw [(ih hrest).2 ⟨hall, rfl⟩]

theorem readings_append_error {front : List Template} (hfront : readings place front = (rs, none))
    (h : (readRecord place t).result = .error f) (back : List Template) :
    readings place (front ++ t :: back) = (rs, some f) := by
  induction front generalizing rs with
  | nil =>
    cases hfront
    exact readings_cons_error h
  | cons x front ih =>
    cases hread : (readRecord place x).result with
    | error f' =>
      rw [readings_cons_error hread] at hfront
      cases hfront
    | ok y =>
      rw [readings_cons_ok hread] at hfront
      obtain ⟨rfl, hnone⟩ := Prod.mk.inj hfront
      rw [List.cons_append, readings_cons_ok hread, ih (Prod.ext rfl hnone)]

theorem readings_eq_error (h : readings place ts = (rs, some f)) :
    ∃ front t back, ts = front ++ t :: back ∧ readings place front = (rs, none) ∧
      (readRecord place t).result = .error f := by
  induction ts generalizing rs with
  | nil => cases h
  | cons x ts ih =>
    cases hread : (readRecord place x).result with
    | error f' =>
      rw [readings_cons_error hread] at h
      cases h
      exact ⟨[], x, ts, rfl, rfl, hread⟩
    | ok y =>
      rw [readings_cons_ok hread] at h
      obtain ⟨rfl, hstop⟩ := Prod.mk.inj h
      obtain ⟨front, t, back, rfl, hfront, herror⟩ := ih (Prod.ext rfl hstop)
      exact ⟨x :: front, t, back, rfl, by rw [readings_cons_ok hread, hfront], herror⟩

/-! ## One step -/

theorem fileAll_cons_error (h : (readRecord place t).result = .error f) (filed : Hierarchy) :
    fileAll place filed (t :: ts) = ⟨(readRecord place t).notices, .error f⟩ := by
  rw [fileAll]
  cases hread : readRecord place t with
  | mk ns result =>
    rw [hread] at h
    cases h
    rfl

theorem fileAll_cons_ok (h : (readRecord place t).result = .ok r) (filed : Hierarchy) :
    fileAll place filed (t :: ts) =
      match filed.add r with
      | (_, more, some f) => ⟨(readRecord place t).notices ++ more, .error f⟩
      | (next, more, none) =>
        Traced.after ((readRecord place t).notices ++ more) (fileAll place next ts) := by
  rw [fileAll]
  cases hread : readRecord place t with
  | mk ns result =>
    rw [hread] at h
    cases h
    rfl

theorem fileAll_cons_quiet (strict : Bool) (h : (readRecord place t).result = .ok r)
    (hquiet : ¬ StartsConflict before r) :
    fileAll place (feed strict before) (t :: ts) =
      Traced.after ((readRecord place t).notices ++ [addedNotice r])
        (fileAll place (feed strict (before ++ [r])) ts) := by
  have hadd := (add_of_not_starts strict hquiet).1
  have hnext := feed_concat strict before r
  rw [fileAll_cons_ok h, hnext]
  cases hstep : (feed strict before).add r with
  | mk next told =>
    rw [hstep] at hadd
    cases hadd
    rfl

theorem fileAll_cons_lenient (h : (readRecord place t).result = .ok r)
    (hstarts : StartsConflict before r) :
    fileAll place (feed false before) (t :: ts) =
      Traced.after
        ((readRecord place t).notices ++ [addedNotice r, .error (conflictMessage r)])
        (fileAll place (feed false (before ++ [r])) ts) := by
  have hadd := (add_of_starts false hstarts).1
  have hnext := feed_concat false before r
  rw [fileAll_cons_ok h, hnext]
  cases hstep : (feed false before).add r with
  | mk next told =>
    rw [hstep] at hadd
    cases hadd
    rfl

theorem fileAll_cons_strict (h : (readRecord place t).result = .ok r)
    (hstarts : StartsConflict before r) :
    fileAll place (feed true before) (t :: ts) =
      ⟨(readRecord place t).notices ++ [addedNotice r, .fatal (conflictMessage r)],
        .error (conflictOf r)⟩ := by
  have hadd := (add_of_starts true hstarts).1
  rw [fileAll_cons_ok h]
  cases hstep : (feed true before).add r with
  | mk next told =>
    rw [hstep] at hadd
    cases hadd
    rfl

/-! ## The run -/

/-- How a run ends that nothing but a failure to read or name a template can stop. -/
def ending (stop : Option Failure) (filed : Hierarchy) : Except Failure Hierarchy :=
  match stop with
  | some f => .error f
  | none => .ok filed

/-- What is reported of that failure. -/
def stopReports (stop : Option Failure) : List Notice :=
  stop.toList.map fun f => .fatal f.message

/-- A run that is not strict, or meets no conflict, goes on to its end or to the failure of a
template. Each conflict is reported as an error. -/
theorem fileAll_goes_on {strict : Bool}
    (h : strict = true → starting before (readings place ts).1 = []) :
    (fileAll place (feed strict before) ts).result =
        ending (readings place ts).2 (feed strict (before ++ (readings place ts).1)) ∧
      reports (fileAll place (feed strict before) ts).notices =
        (starting before (readings place ts).1).map (fun r => .error (conflictMessage r)) ++
          stopReports (readings place ts).2 := by
  induction ts generalizing before with
  | nil => exact ⟨by simp [fileAll, readings, ending, Traced.ok], rfl⟩
  | cons t ts ih =>
    cases hread : (readRecord place t).result with
    | error f =>
      rw [fileAll_cons_error hread, readings_cons_error hread]
      exact ⟨rfl, reports_of_readRecord_error hread⟩
    | ok r =>
      have hquiet := (reports_of_readRecord_ok hread).1
      rw [readings_cons_ok hread, starting] at h ⊢
      by_cases hstarts : StartsConflict before r
      · cases strict with
        | true =>
          rw [if_pos hstarts] at h
          cases h rfl
        | false =>
          obtain ⟨hresult, hreports⟩ := @ih (before ++ [r]) fun e => nomatch e
          rw [List.append_assoc, List.singleton_append] at hresult
          rw [fileAll_cons_lenient hread hstarts, if_pos hstarts]
          refine ⟨hresult, ?_⟩
          simp only [Traced.after]
          rw [reports_append, reports_append_of_quiet hquiet, hreports]
          rfl
      · rw [if_neg hstarts] at h ⊢
        obtain ⟨hresult, hreports⟩ := ih h
        rw [List.append_assoc, List.singleton_append] at hresult
        rw [fileAll_cons_quiet strict hread hstarts]
        refine ⟨hresult, ?_⟩
        simp only [Traced.after]
        rw [reports_append, reports_append_of_quiet hquiet, hreports]
        rfl

theorem fileAll_ends (h : starting before (readings place ts).1 = r :: more) :
    (fileAll place (feed true before) ts).result = .error (conflictOf r) ∧
      reports (fileAll place (feed true before) ts).notices = [.fatal (conflictMessage r)] := by
  induction ts generalizing before with
  | nil => cases h
  | cons t ts ih =>
    cases hread : (readRecord place t).result with
    | error f =>
      rw [readings_cons_error hread] at h
      cases h
    | ok x =>
      have hquiet := (reports_of_readRecord_ok hread).1
      rw [readings_cons_ok hread, starting] at h
      by_cases hstarts : StartsConflict before x
      · rw [if_pos hstarts] at h
        cases h
        rw [fileAll_cons_strict hread hstarts]
        exact ⟨rfl, by rw [reports_append_of_quiet hquiet]; rfl⟩
      · rw [if_neg hstarts] at h
        obtain ⟨hresult, hreports⟩ := ih h
        rw [fileAll_cons_quiet true hread hstarts]
        refine ⟨hresult, ?_⟩
        simp only [Traced.after]
        rw [reports_append, reports_append_of_quiet hquiet, hreports]
        rfl

/-- Two runs in different modes tell the same as long as no record starts a conflict. -/
theorem fileAll_in_step (h : starting before (readings place ts).1 = []) :
    (fileAll place (feed true before) ts).notices =
      (fileAll place (feed false before) ts).notices := by
  induction ts generalizing before with
  | nil => rfl
  | cons t ts ih =>
    cases hread : (readRecord place t).result with
    | error f => rw [fileAll_cons_error hread, fileAll_cons_error hread]
    | ok r =>
      rw [readings_cons_ok hread, starting] at h
      by_cases hstarts : StartsConflict before r
      · rw [if_pos hstarts] at h
        cases h
      · rw [if_neg hstarts] at h
        rw [fileAll_cons_quiet true hread hstarts, fileAll_cons_quiet false hread hstarts]
        simp only [Traced.after, ih h]

theorem errorCount_of_starting {strict : Bool} (h : strict = true → starting [] rs = []) :
    (feed strict rs).errorCount = (starting [] rs).length := by
  cases strict with
  | true => rw [errorCount_feed_strict, h rfl, List.length_nil]
  | false =>
    have hlen := length_starting [] rs
    have hempty : contestedPlaces [] = [] := rfl
    rw [List.nil_append, hempty, List.length_nil, Nat.zero_add] at hlen
    rw [errorCount_feed_lenient, hlen]

end Generation
end RefManifest
