import RefManifest.CommandLine.Invocation

/-!
# RefManifest.Proofs.CommandLine.Verifying

The words that ask for a manifest, with `check` in the place of `generate`, ask for a check with
the same arguments (`parse_verifying`).

Two facts carry this. The scan before the command does not look at which command it is
(`run_top`). Behind the command the two scopes know the same flags but for `--stdout`, and that
flag, once given, stays given, so words that do not ask for it are read alike in both scopes
(`run_check`).
-/

namespace RefManifest

/-- The same invocation with `check` as its command. -/
def Invocation.verifying (i : Invocation) : Invocation :=
  { i with command := .check i.command.args }

theorem exists_of_map {ε α β : Type} {x : Except ε α} {g : α → β} {b : β} (h : x.map g = .ok b) :
    ∃ a, x = .ok a ∧ b = g a := by
  cases x with
  | error e => cases h
  | ok a =>
    cases h
    exact ⟨a, rfl, rfl⟩

namespace CommandLine

namespace Options

variable {o o' : Options} {f : Flag} {v : String}

theorem setValue_stdout (h : o.setValue f v = .ok o') :
    o'.stdout = (o.stdout || f == .stdout) := by
  cases f with
  | referenceDir | output | exitOnError | format | config =>
    obtain ⟨a, -, rfl⟩ := exists_of_map h
    exact (Bool.or_false _).symm
  | exclude | verbose | quiet => cases h; exact (Bool.or_false _).symm
  | stdout => cases h; exact (Bool.or_true _).symm
  | help | version => cases h

theorem give_stdout (h : o.give f v = .ok o') : o'.stdout = (o.stdout || f == .stdout) := by
  unfold give at h
  split at h
  · cases h
  · exact setValue_stdout h

theorem fill_stdout {env : Environment} (h : o.fill env f = .ok o') : o'.stdout = o.stdout := by
  unfold fill at h
  split at h
  · cases h
    rfl
  · split at h
    · rename_i s hs
      have hf : (f == .stdout) = false := by
        cases f <;> first | rfl | cases hs
      rw [setValue_stdout h, hf, Bool.or_false]
    · cases h
      rfl

/-- Filling in a list of flags begins with the first. -/
theorem fillAll_cons_eq_ok {env : Environment} {fs : List Flag}
    (h : o.fillAll env (f :: fs) = .ok o') :
    ∃ o₁, o.fill env f = .ok o₁ ∧ o₁.fillAll env fs = .ok o' := by
  rw [fillAll] at h
  cases hfill : o.fill env f with
  | error e => rw [hfill] at h; cases h
  | ok o₁ =>
    rw [hfill] at h
    exact ⟨o₁, rfl, h⟩

theorem fillAll_stdout {env : Environment} {fs : List Flag} (h : o.fillAll env fs = .ok o') :
    o'.stdout = o.stdout := by
  induction fs generalizing o with
  | nil =>
    cases h
    rfl
  | cons f fs ih =>
    obtain ⟨o₁, hfill, hrest⟩ := fillAll_cons_eq_ok h
    rw [ih hrest, fill_stdout hfill]

theorem fillAll_generate (env : Environment) (o : Options) :
    o.fillAll env Scope.generate.flags = o.fillAll env Scope.check.flags := by
  have hfill : ∀ o : Options, o.fill env .stdout = .ok o := by
    intro o
    unfold fill
    split <;> rfl
  simp [Scope.generate, Scope.check, Scope.reference, Scope.globals, fillAll, hfill]

end Options

theorem long?_generate (name : String) :
    Scope.generate.long? name =
      if name = "stdout" then some .stdout else Scope.check.long? name := by
  simp only [Scope.long?, Scope.generate, Scope.check, Scope.reference, Scope.globals,
    List.cons_append, List.nil_append, List.find?_cons, Flag.longName]
  by_cases h : name = "stdout"
  · subst h
    rfl
  · have hne : ("stdout" == name) = false := by simpa using fun e => h e.symm
    simp [h, hne]

theorem short?_generate (c : Char) : Scope.generate.short? c = Scope.check.short? c := by
  simp [Scope.short?, Scope.generate, Scope.check, Scope.reference, Scope.globals,
    List.find?_cons, Flag.shortName]

namespace Scan

variable {s s' : Scan} {f : Flag} {v word : String} {words : List String} {scope : Scope}

/-- Takes one word in that is neither a command nor the end of the flags. -/
def take (scope : Scope) (s : Scan) (word : String) : Except UsageError Scan :=
  match Word.of word with
  | .long name value => takeLong scope s name value
  | .short letters => takeShort scope s letters
  | .plain => takePlain scope s word

theorem run_cons (scope : Scope) (s : Scan) (word : String) (rest : List String) :
    run scope s (word :: rest) =
      if scope.commands ∧ s.awaiting = false ∧ word ∈ commandNames then .ok (s, some (word, rest))
      else if word = "--" then
        match rest with
        | [] => .ok (s, none)
        | w :: _ => .error (strayBehind scope w)
      else
        match take scope s word with
        | .error e => .error e
        | .ok s => run scope s rest := rfl

/-- The scan before the command does not look at which command it is. -/
theorem run_top {name : String} {rest : List String}
    (h : run .top s words = .ok (s', some (name, rest))) :
    ∃ before, words = before ++ name :: rest ∧ ∀ name' ∈ commandNames, ∀ rest',
      run .top s (before ++ name' :: rest') = .ok (s', some (name', rest')) := by
  induction words generalizing s with
  | nil => cases h
  | cons word words ih =>
    rw [run_cons] at h
    split at h
    · rename_i hcommand
      cases h
      refine ⟨[], rfl, fun name' hname rest' => ?_⟩
      rw [List.nil_append, run_cons, if_pos ⟨hcommand.1, hcommand.2.1, hname⟩]
    · rename_i hcommand
      split at h
      · split at h <;> cases h
      · rename_i hdashes
        cases htake : take .top s word with
        | error e => rw [htake] at h; cases h
        | ok s₁ =>
          rw [htake] at h
          obtain ⟨before, rfl, hbefore⟩ := ih h
          refine ⟨word :: before, rfl, fun name' hname rest' => ?_⟩
          rw [List.cons_append, run_cons, if_neg hcommand, if_neg hdashes, htake]
          exact hbefore name' hname rest'

theorem settle_stdout {o : Options} (h : s.settle = .ok o) (hs : s.options.stdout = true) :
    o.stdout = true := by
  unfold settle at h
  split at h
  · cases h
    exact hs
  · split at h
    · rw [Options.give_stdout h, hs, Bool.true_or]
    · cases h
    · rw [Options.give_stdout h, hs, Bool.true_or]

theorem giveNow_eq_ok (h : s.giveNow f v = .ok s') :
    ∃ o o₁, s.settle = .ok o ∧ o.give f v = .ok o₁ ∧ s' = ⟨o₁, none⟩ := by
  unfold giveNow at h
  split at h
  · cases h
  · rename_i o hsettle
    split at h
    · cases h
    · rename_i o₁ hgive
      cases h
      exact ⟨o, o₁, hsettle, hgive, rfl⟩

theorem giveNow_stdout (h : s.giveNow f v = .ok s') :
    (s.options.stdout = true ∨ f = .stdout) → s'.options.stdout = true := by
  obtain ⟨o, o₁, hsettle, hgive, rfl⟩ := giveNow_eq_ok h
  rintro (hs | rfl)
  · simp [Options.give_stdout hgive, settle_stdout hsettle hs]
  · simp [Options.give_stdout hgive]

theorem suspend_eq_ok (h : s.suspend f = .ok s') :
    ∃ o, s.settle = .ok o ∧ s' = ⟨o, some ⟨f, none, true⟩⟩ := by
  unfold suspend at h
  split at h
  · cases h
  · rename_i o hsettle
    cases h
    exact ⟨o, hsettle, rfl⟩

theorem suspend_stdout (h : s.suspend f = .ok s') (hs : s.options.stdout = true) :
    s'.options.stdout = true := by
  obtain ⟨o, hsettle, rfl⟩ := suspend_eq_ok h
  exact settle_stdout hsettle hs

theorem takeShort_stdout {letters : List Char} (h : takeShort scope s letters = .ok s')
    (hs : s.options.stdout = true) : s'.options.stdout = true := by
  induction letters generalizing s with
  | nil =>
    cases h
    exact hs
  | cons c rest ih =>
    unfold takeShort at h
    split at h
    · cases h
    · split at h
      · split at h
        · cases h
        · rename_i s₁ hgive
          exact ih h (giveNow_stdout hgive (.inl hs))
      · split at h
        · exact suspend_stdout h hs
        · exact giveNow_stdout h (.inl hs)

theorem take_stdout (h : take scope s word = .ok s') (hs : s.options.stdout = true) :
    s'.options.stdout = true := by
  unfold take at h
  split at h
  · rw [takeLong] at h
    split at h
    · cases h
    · split at h
      · cases h
      · exact giveNow_stdout h (.inl hs)
      · exact giveNow_stdout h (.inl hs)
      · exact suspend_stdout h hs
  · exact takeShort_stdout h hs
  · rw [takePlain] at h
    split at h
    · split at h
      · cases h
        exact hs
      · cases h
    · cases h

theorem run_stdout {c : Option (String × List String)} (h : run scope s words = .ok (s', c))
    (hs : s.options.stdout = true) : s'.options.stdout = true := by
  induction words generalizing s with
  | nil =>
    cases h
    exact hs
  | cons word words ih =>
    rw [run_cons] at h
    split at h
    · cases h
      exact hs
    · split at h
      · split at h
        · cases h
          exact hs
        · cases h
      · cases htake : take scope s word with
        | error e => rw [htake] at h; cases h
        | ok s₁ =>
          rw [htake] at h
          exact ih h (take_stdout htake hs)

theorem takeShort_generate (s : Scan) (letters : List Char) :
    takeShort .generate s letters = takeShort .check s letters := by
  induction letters generalizing s with
  | nil => rfl
  | cons c rest ih => simp only [takeShort, short?_generate, ih]

/-- A word that does not ask for the flag is taken alike in both scopes. -/
theorem take_generate (h : take .generate s word = .ok s') (hs : s'.options.stdout = false) :
    take .check s word = .ok s' := by
  rw [take] at h ⊢
  split at h
  · rename_i name value _
    rw [takeLong, long?_generate] at h
    unfold takeLong
    by_cases hname : name = "stdout"
    · rw [if_pos hname] at h
      cases value with
      | some v => cases h
      | none =>
        have hset := giveNow_stdout h (.inr rfl)
        rw [hs] at hset
        cases hset
    · rw [if_neg hname] at h
      exact h
  · rw [takeShort_generate] at h
    exact h
  · exact h

theorem run_cons_behind (hscope : scope.commands = false) (s : Scan) (word : String)
    (rest : List String) :
    run scope s (word :: rest) =
      if word = "--" then
        match rest with
        | [] => .ok (s, none)
        | w :: _ => .error (strayBehind scope w)
      else
        match take scope s word with
        | .error e => .error e
        | .ok s => run scope s rest := by
  rw [run_cons, if_neg (by simp [hscope])]

/-- Words that do not ask for the flag are read alike in both scopes. -/
theorem run_check {c : Option (String × List String)}
    (h : run .generate s words = .ok (s', c)) (hs : s'.options.stdout = false) :
    run .check s words = .ok (s', c) := by
  induction words generalizing s with
  | nil => exact h
  | cons word words ih =>
    rw [run_cons_behind rfl] at h ⊢
    split at h
    · rename_i hdashes
      rw [if_pos hdashes]
      cases words with
      | nil => exact h
      | cons w rest => cases h
    · rename_i hdashes
      rw [if_neg hdashes]
      cases htake : take .generate s word with
      | error e => rw [htake] at h; cases h
      | ok s₁ =>
        rw [htake] at h
        -- The flag would still be there at the end.
        have hs₁ : s₁.options.stdout = false := by
          rw [Bool.eq_false_iff]
          intro hset
          rw [run_stdout h hset] at hs
          cases hs
        rw [take_generate htake hs₁]
        exact ih h

end Scan

/-! ## Command lines -/

variable {env : Environment} {words : List String} {i : Invocation} {args : ReferenceArgs}

theorem finish_generate (env : Environment) (s : Scan) :
    finish env .generate s = finish env .check s := by
  rw [finish, finish]
  cases s.settle with
  | error e => rfl
  | ok o => exact Options.fillAll_generate env o

theorem finish_stdout {scope : Scope} {s : Scan} {o : Options} (h : finish env scope s = .ok o)
    (ho : o.stdout = false) : s.options.stdout = false := by
  unfold finish at h
  cases hsettle : s.settle with
  | error e => rw [hsettle] at h; cases h
  | ok settled =>
    rw [hsettle] at h
    rw [Options.fillAll_stdout h] at ho
    rw [Bool.eq_false_iff]
    intro hset
    rw [Scan.settle_stdout hsettle hset] at ho
    cases ho

theorem consistent_eq_ok {o o' : Options} (h : consistent o = .ok o') : o' = o := by
  unfold consistent at h
  split at h
  · cases h
  · cases h
    rfl

theorem readScope_eq_ok {scope : Scope} {o given : Options} :
    readScope env scope words = .ok (o, given) ↔
      ∃ s c, Scan.run scope Scan.start words = .ok (s, c) ∧ s.settle = .ok given ∧
        finish env scope s = .ok o ∧ consistent o = .ok o := by
  constructor
  · intro h
    unfold readScope at h
    split at h
    · cases h
    · rename_i s c hrun
      split at h
      · cases h
      · rename_i settled hsettle
        split at h
        · cases h
        · rename_i filled hfinish
          split at h
          · cases h
          · rename_i o' hconsistent
            cases h
            cases consistent_eq_ok hconsistent
            exact ⟨s, c, hrun, hsettle, hfinish, hconsistent⟩
  · rintro ⟨s, c, hrun, hsettle, hfinish, hconsistent⟩
    simp only [readScope, hrun, hsettle, hfinish, hconsistent]

theorem parse_eq_ok :
    parse env words = .ok i ↔
      ∃ s name rest inner given command outer,
        Scan.run .top Scan.start words = .ok (s, some (name, rest)) ∧
        readCommand env name rest = .ok (inner, given, command) ∧
        finish env .top s = .ok outer ∧ consistent outer = .ok outer ∧
        i = ⟨outer.verbose || inner.verbose, outer.quiet || inner.quiet,
          given.config <|> outer.config, command⟩ := by
  constructor
  · intro h
    unfold parse at h
    split at h
    · cases h
    · split at h <;> cases h
    · rename_i s name rest hrun
      split at h
      · cases h
      · rename_i inner given command hread
        split at h
        · cases h
        · rename_i filled hfinish
          split at h
          · cases h
          · rename_i outer hconsistent
            cases h
            cases consistent_eq_ok hconsistent
            exact ⟨s, name, rest, inner, given, command, filled, hrun, hread, hfinish, hconsistent,
              rfl⟩
  · rintro ⟨s, name, rest, inner, given, command, outer, hrun, hread, hfinish, hconsistent, rfl⟩
    simp only [parse, hrun, hread, hfinish, hconsistent]

theorem readScope_check {o given : Options}
    (h : readScope env .generate words = .ok (o, given)) (ho : o.stdout = false) :
    readScope env .check words = .ok (o, given) := by
  obtain ⟨s, c, hrun, hsettle, hfinish, hconsistent⟩ := readScope_eq_ok.1 h
  have hstdout := finish_stdout hfinish ho
  rw [finish_generate] at hfinish
  exact readScope_eq_ok.2 ⟨s, c, Scan.run_check hrun hstdout, hsettle, hfinish, hconsistent⟩

theorem readCommand_generate {name : String} {o given : Options}
    (h : readCommand env name words = .ok (o, given, .generate args false)) :
    name = "generate" ∧ readCommand env "check" words = .ok (o, given, .check args) := by
  unfold readCommand at h
  split at h
  · rename_i hname
    cases hread : readScope env .generate words with
    | error e => rw [hread] at h; cases h
    | ok found =>
      obtain ⟨o', given'⟩ := found
      rw [hread] at h
      simp only [Except.ok.injEq, Prod.mk.injEq, Command.generate.injEq] at h
      obtain ⟨rfl, rfl, rfl, hstdout⟩ := h
      refine ⟨hname, ?_⟩
      rw [readCommand, if_neg (by decide), if_pos rfl, readScope_check hread hstdout]
  · split at h
    · cases hread : readScope env .check words with
      | error e => rw [hread] at h; cases h
      | ok found => rw [hread] at h; cases h
    · cases h

/-- The same words for a check. A command line that asks for a manifest to be written has the
word `generate` as its command; with `check` there it asks for the check with the same
arguments. -/
theorem parse_verifying (h : parse env words = .ok i)
    (hcommand : i.command = .generate args false) :
    ∃ before rest, words = before ++ "generate" :: rest ∧
      parse env (before ++ "check" :: rest) = .ok i.verifying := by
  obtain ⟨s, name, rest, inner, given, command, outer, hrun, hread, hfinish, hconsistent, rfl⟩ :=
    parse_eq_ok.1 h
  simp only at hcommand
  subst hcommand
  obtain ⟨before, rfl, hbefore⟩ := Scan.run_top hrun
  obtain ⟨rfl, hcheck⟩ := readCommand_generate hread
  refine ⟨before, rest, rfl, parse_eq_ok.2 ?_⟩
  exact ⟨s, "check", rest, inner, given, .check args, outer, hbefore "check" (by decide) rest,
    hcheck, hfinish, hconsistent, rfl⟩

end CommandLine
end RefManifest
