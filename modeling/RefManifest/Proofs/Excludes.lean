import Mathlib.Data.List.Forall2
import RefManifest.Excludes
import RefManifest.Proofs.Glob.Pattern
import RefManifest.Settings

/-!
# RefManifest.Proofs.Excludes

What a list of exclude patterns leaves out, and which lists are refused.

A path is left out exactly if its text is in the language of some pattern (`excludes_iff`). The
tokens say which language that is (`Glob.Splits`), with one exception that shows in the patterns
that end with `**/`: nothing follows the wildcard there, so it takes any text, and `a/**/` leaves
out what `a/**` does (`final_slash_is_lost`).

A list is refused at its first pattern that is (`compileAll_eq_error`). The patterns of the
configuration file come before those of the command line, and the set that results is the union of
the two (`resolve_excludes`).
-/

namespace RefManifest
namespace Excludes

variable {text : List Char} {texts : List String} {e : Excludes} {path : Path} {p : Glob.Pattern}

/-- Two dots in a row stand somewhere in the pattern. -/
def ParentReference (text : List Char) : Prop := ['.', '.'] <:+: text

/-- The pattern starts with a slash, or with a drive letter, a colon and a slash of either kind. -/
def Absolute (text : List Char) : Prop :=
  (∃ rest, text = '/' :: rest) ∨
    ∃ letter slash rest, text = letter :: ':' :: slash :: rest ∧
      ('a' ≤ letter ∧ letter ≤ 'z' ∨ 'A' ≤ letter ∧ letter ≤ 'Z') ∧ (slash = '/' ∨ slash = '\\')

/-- The pattern follows the syntax. -/
def Readable (text : List Char) : Prop := ∃ tokens, Glob.Written none text tokens

/-- The pattern stays inside the reference directory and follows the syntax. -/
structure Acceptable (text : List Char) : Prop where
  inside : ¬ ParentReference text
  relative : ¬ Absolute text
  readable : Readable text

/-- The pattern is refused for that reason, the first that holds of a reference to the parent, an
absolute pattern and a fault in the syntax. -/
def Refused (text : List Char) (reason : String) : Prop :=
  ParentReference text ∧ reason = "patterns must not contain '..'" ∨
  ¬ ParentReference text ∧ Absolute text ∧
    reason = "patterns must be relative to the reference directory" ∨
  ¬ ParentReference text ∧ ¬ Absolute text ∧
    ∃ fault, Glob.parse text = .error fault ∧ reason = fault.message

theorem hasParentReference_iff : hasParentReference text = true ↔ ParentReference text := by
  unfold ParentReference
  fun_induction hasParentReference text with
  | case1 rest => simp [List.infix_cons_iff]
  | case2 c rest hne ih =>
    have hnot : ¬ ['.', '.'] <+: c :: rest := by
      rintro ⟨tail, heq⟩
      obtain ⟨rfl, rfl⟩ := List.cons.inj heq
      exact hne tail rfl rfl
    rw [ih, List.infix_cons_iff]
    exact ⟨.inr, fun h => h.resolve_left hnot⟩
  | case3 => simp

theorem isAsciiLetter_iff {c : Char} :
    isAsciiLetter c = true ↔ 'a' ≤ c ∧ c ≤ 'z' ∨ 'A' ≤ c ∧ c ≤ 'Z' := by
  simp [isAsciiLetter]

theorem startsAbsolute_iff : startsAbsolute text = true ↔ Absolute text := by
  constructor
  · intro h
    unfold startsAbsolute at h
    split at h
    · exact .inl ⟨_, rfl⟩
    · exact .inr ⟨_, _, _, rfl, isAsciiLetter_iff.1 h, .inl rfl⟩
    · exact .inr ⟨_, _, _, rfl, isAsciiLetter_iff.1 h, .inr rfl⟩
    · cases h
  · rintro (⟨rest, rfl⟩ | ⟨letter, slash, rest, rfl, hletter, hslash⟩)
    · rfl
    · have hletter := isAsciiLetter_iff.2 hletter
      by_cases hroot : letter = '/'
      · rw [hroot]
        rfl
      · rcases hslash with rfl | rfl <;> simp [startsAbsolute, hletter]

theorem compile_eq_ok :
    compile text = .ok p ↔
      ¬ ParentReference text ∧ ¬ Absolute text ∧ Glob.parse text = .ok p := by
  rw [← hasParentReference_iff, ← startsAbsolute_iff]
  unfold compile
  by_cases hparent : hasParentReference text = true
  · simp [hparent]
  · by_cases habsolute : startsAbsolute text = true
    · simp [hparent, habsolute]
    · simp only [hparent, habsolute, if_false, Bool.false_eq_true, not_false_eq_true, true_and]
      cases Glob.parse text <;> simp

theorem compile_eq_error {reason : String} :
    (∃ refusal, compile text = .error refusal ∧ refusal.message = reason) ↔
      Refused text reason := by
  rw [Refused, ← hasParentReference_iff, ← startsAbsolute_iff]
  unfold compile
  by_cases hparent : hasParentReference text = true
  · simp [hparent, Refusal.message, eq_comm (a := reason)]
  · by_cases habsolute : startsAbsolute text = true
    · simp [hparent, habsolute, Refusal.message, eq_comm (a := reason)]
    · cases hparse : Glob.parse text with
      | ok p => simp [hparent, habsolute]
      | error fault => simp [hparent, habsolute, Refusal.message, eq_comm (a := reason)]

/-- A pattern is acceptable exactly if no reason is found to refuse it. -/
theorem acceptable_iff : Acceptable text ↔ ∃ p, compile text = .ok p := by
  simp only [compile_eq_ok, Glob.parse_eq_ok]
  constructor
  · rintro ⟨hinside, hrelative, tokens, htokens⟩
    exact ⟨_, hinside, hrelative, tokens, htokens, rfl⟩
  · rintro ⟨_, hinside, hrelative, tokens, htokens, rfl⟩
    exact ⟨hinside, hrelative, tokens, htokens⟩

theorem not_acceptable_iff :
    ¬ Acceptable text ↔ ParentReference text ∨ Absolute text ∨ ¬ Readable text := by
  constructor
  · intro h
    by_contra hnone
    simp only [not_or, not_not] at hnone
    exact h ⟨hnone.1, hnone.2.1, hnone.2.2⟩
  · rintro (h | h | h) hacceptable
    · exact hacceptable.inside h
    · exact hacceptable.relative h
    · exact h hacceptable.readable

theorem exists_refused : (∃ reason, Refused text reason) ↔ ¬ Acceptable text := by
  simp only [← compile_eq_error, acceptable_iff]
  cases compile text <;> simp

theorem compileAll_cons_error {t : String} {refusal : Refusal}
    (h : compile t.toList = .error refusal) :
    compileAll (t :: texts) = .error (.invalidExcludePattern t refusal.message) := by
  rw [compileAll, h]

theorem compileAll_cons_ok {t : String} (h : compile t.toList = .ok p) :
    compileAll (t :: texts) = (compileAll texts).map (p :: ·) := by
  rw [compileAll, h]
  cases compileAll texts <;> rfl

theorem compileAll_eq_ok {ps : List Glob.Pattern} :
    compileAll texts = .ok ps ↔ List.Forall₂ (fun t p => compile t.toList = .ok p) texts ps := by
  induction texts generalizing ps with
  | nil => cases ps <;> simp [compileAll]
  | cons t texts ih =>
    cases ht : compile t.toList with
    | error refusal =>
      rw [compileAll_cons_error ht]
      cases ps <;> simp [ht]
    | ok p =>
      rw [compileAll_cons_ok ht]
      cases hrest : compileAll texts with
      | error f => cases ps <;> simp [← ih, hrest, Except.map]
      | ok qs => cases ps <;> simp [← ih, hrest, ht, Except.map]

theorem compileAll_eq_error {f : Failure} :
    compileAll texts = .error f ↔
      ∃ front t back reason, texts = front ++ t :: back ∧ (∀ u ∈ front, Acceptable u.toList) ∧
        Refused t.toList reason ∧ f = .invalidExcludePattern t reason := by
  induction texts with
  | nil => simp [compileAll]
  | cons t texts ih =>
    cases ht : compile t.toList with
    | error refusal =>
      rw [compileAll_cons_error ht]
      have hrefused : Refused t.toList refusal.message := compile_eq_error.1 ⟨refusal, ht, rfl⟩
      have hnot := exists_refused.1 ⟨_, hrefused⟩
      constructor
      · intro h
        cases h
        exact ⟨[], t, texts, _, rfl, by simp, hrefused, rfl⟩
      · rintro ⟨front, u, back, reason, heq, hfront, hu, rfl⟩
        cases front with
        | nil =>
          obtain ⟨rfl, rfl⟩ := List.cons.inj heq
          obtain ⟨refusal', ht', rfl⟩ := compile_eq_error.2 hu
          cases ht.symm.trans ht'
          rfl
        | cons v front =>
          obtain ⟨rfl, -⟩ := List.cons.inj heq
          exact absurd (hfront t (List.mem_cons_self ..)) hnot
    | ok p =>
      have hacceptable : Acceptable t.toList := acceptable_iff.2 ⟨p, ht⟩
      have hstep : compileAll (t :: texts) = .error f ↔ compileAll texts = .error f := by
        rw [compileAll_cons_ok ht]
        cases compileAll texts <;> simp [Except.map]
      rw [hstep, ih]
      constructor
      · rintro ⟨front, u, back, reason, rfl, hfront, hu, rfl⟩
        exact ⟨t :: front, u, back, reason, rfl, by simpa [hacceptable] using hfront, hu, rfl⟩
      · rintro ⟨front, u, back, reason, heq, hfront, hu, rfl⟩
        cases front with
        | nil =>
          obtain ⟨rfl, rfl⟩ := List.cons.inj heq
          exact absurd hacceptable (exists_refused.1 ⟨_, hu⟩)
        | cons v front =>
          obtain ⟨rfl, rfl⟩ := List.cons.inj heq
          exact ⟨front, u, back, reason, rfl,
            fun w hw => hfront w (List.mem_cons_of_mem _ hw), hu, rfl⟩

theorem ofPatterns_eq_ok : ofPatterns texts = .ok e ↔ compileAll texts = .ok e.patterns := by
  unfold ofPatterns
  cases compileAll texts with
  | error f => simp
  | ok ps =>
    simp only [Except.ok.injEq]
    constructor
    · rintro rfl
      rfl
    · rintro rfl
      rfl

theorem ofPatterns_eq_error {f : Failure} :
    ofPatterns texts = .error f ↔ compileAll texts = .error f := by
  unfold ofPatterns
  cases compileAll texts <;> simp

/-! ## Paths that are left out -/

/-- The text of the path falls into pieces that the tokens of the pattern take in order. -/
def LeavesOut (text : List Char) (path : Path) : Prop :=
  ∃ tokens, Glob.Written none text tokens ∧ Glob.Splits tokens path.slashed

theorem matchesText_of_compile (h : compile text = .ok p) :
    Glob.matchesText p path.slashed = true ↔ LeavesOut text path := by
  have hparse := (compile_eq_ok.1 h).2.2
  obtain ⟨tokens, htokens, -⟩ := Glob.parse_eq_ok.1 hparse
  rw [Glob.matchesText_iff hparse htokens]
  constructor
  · intro hsplits
    exact ⟨tokens, htokens, hsplits⟩
  · rintro ⟨tokens', htokens', hsplits⟩
    rwa [htokens.unique htokens']

/-- A path is left out exactly if one of the patterns leaves it out. -/
theorem excludes_iff (h : ofPatterns texts = .ok e) :
    e.excludes path = true ↔ ∃ t ∈ texts, LeavesOut t.toList path := by
  have hall := compileAll_eq_ok.1 (ofPatterns_eq_ok.1 h)
  have hany {texts : List String} {ps : List Glob.Pattern}
      (hall : List.Forall₂ (fun t p => compile t.toList = .ok p) texts ps) :
      (∃ p ∈ ps, Glob.matchesText p path.slashed = true) ↔
        ∃ t ∈ texts, LeavesOut t.toList path := by
    induction hall with
    | nil => simp
    | cons ht _ ih => simp [matchesText_of_compile ht, ih]
  rw [excludes, List.any_eq_true]
  exact hany hall

theorem acceptable_of_ofPatterns (h : ofPatterns texts = .ok e) {t : String} (ht : t ∈ texts) :
    Acceptable t.toList := by
  have hall := compileAll_eq_ok.1 (ofPatterns_eq_ok.1 h)
  obtain ⟨i, hi, rfl⟩ := List.getElem_of_mem ht
  exact acceptable_iff.2 ⟨_, hall.get hi (hall.length_eq ▸ hi)⟩

theorem excludes_of_written {tokens : Glob.Pattern}
    (h : ofPatterns [String.ofList text] = .ok e) (hwritten : Glob.Written none text tokens) :
    e.excludes path = true ↔ Glob.Splits tokens path.slashed := by
  rw [excludes_iff h]
  simp only [List.mem_singleton, exists_eq_left, String.toList_ofList]
  constructor
  · rintro ⟨tokens', hwritten', hsplits⟩
    rwa [hwritten.unique hwritten']
  · intro hsplits
    exact ⟨tokens, hwritten, hsplits⟩

/-- The language of a list of patterns. Every pattern has one reading, and a path is left out
exactly if its text falls into pieces for the tokens of some pattern, where a wildcard for
directories that ends its pattern takes anything. So a directory in front of `/**` leaves out what
is below it, a text behind `*` what ends with it, and a text behind `**/` the path itself and what
ends with it behind a slash. -/
theorem excludes_language (h : ofPatterns texts = .ok e) (path : Path) :
    (∀ t ∈ texts, ∃! tokens, Glob.Written none t.toList tokens) ∧
    (e.excludes path = true ↔ ∃ t ∈ texts, ∃ tokens pieces, Glob.Written none t.toList tokens ∧
      Glob.Pieces tokens pieces ∧ pieces.flatten = path.slashed) ∧
    (∀ d, Glob.Plain d → texts = [String.ofList (d ++ ['/', '*', '*'])] →
      (e.excludes path = true ↔ d ++ ['/'] <+: path.slashed)) ∧
    (∀ s, Glob.Plain s → texts = [String.ofList ('*' :: s)] →
      (e.excludes path = true ↔ s <:+ path.slashed)) ∧
    ∀ s, Glob.Plain s → s ≠ [] → texts = [String.ofList ('*' :: '*' :: '/' :: s)] →
      (e.excludes path = true ↔ path.slashed = s ∨ '/' :: s <:+ path.slashed) := by
  refine ⟨fun t ht => ?_, ?_, ?_, ?_, ?_⟩
  · obtain ⟨tokens, htokens⟩ := (acceptable_of_ofPatterns h ht).readable
    exact ⟨tokens, htokens, fun tokens' htokens' => htokens'.unique htokens⟩
  · simp only [excludes_iff h, LeavesOut, Glob.Splits, exists_and_left]
  · rintro d hd rfl
    have hend (before : Option Char) : Glob.Written before ['/', '*', '*']
        [.char '/', .anyDirectories] := .char (by decide) (.final (.inr rfl))
    rw [excludes_of_written h (hd.written hend none), Glob.splits_plain]
    simp only [Glob.splits_char, Glob.splits_final, and_true, List.IsPrefix, List.append_assoc,
      List.singleton_append]
    constructor
    · rintro ⟨_, htext, s, rfl⟩
      exact ⟨s, htext.symm⟩
    · rintro ⟨s, htext⟩
      exact ⟨_, htext.symm, s, rfl⟩
  · rintro s hs rfl
    have hwritten : Glob.Written none ('*' :: s) (.anySequence :: s.map .char) := by
      refine .anySequence (fun hhead => ?_) ?_
      · exact (hs '*' (List.mem_of_mem_head? hhead)).2.1 rfl
      · simpa using hs.written (fun _ => .nil) (some '*')
    rw [excludes_of_written h hwritten, Glob.splits_anySequence]
    simp only [Glob.splits_plain_end, List.IsSuffix, eq_comm (a := path.slashed),
      exists_eq_right]
  · rintro s hs hne rfl
    have hwritten : Glob.Written none ('*' :: '*' :: '/' :: s) (.anyDirectories :: s.map .char) := by
      refine .anyDirectories (.inl rfl) ?_
      simpa using hs.written (fun _ => .nil) (some '/')
    rw [excludes_of_written h hwritten, Glob.splits_anyDirectories (by simpa using hne)]
    simp only [Glob.splits_plain_end, List.IsSuffix, exists_eq_right,
      eq_comm (a := path.slashed)]

/-- A path below two directories is left out by the second of two patterns. -/
theorem excludes_language_hack :
    ∃ e, ofPatterns ["*.md", "h?ck/**/x"] = .ok e ∧
      e.excludes (Path.ofString "hack/u/v/x") = true := by
  have hlist : ofPatterns ["*.md", "h?ck/**/x"] = .ok ⟨[[.anySequence, .char '.', .char 'm',
      .char 'd'], [.char 'h', .anyChar, .char 'c', .char 'k', .char '/', .anyDirectories,
      .char 'x']]⟩ := rfl
  refine ⟨_, hlist, (excludes_language hlist (Path.ofString "hack/u/v/x")).2.1.2 ?_⟩
  refine ⟨"h?ck/**/x", by decide,
    [.char 'h', .anyChar, .char 'c', .char 'k', .char '/', .anyDirectories, .char 'x'],
    [['h'], ['a'], ['c'], ['k'], ['/'], ['u', '/', 'v', '/'], ['x']], ?_, ?_, rfl⟩
  · exact .char (by decide) (.anyChar (.char (by decide) (.char (by decide) (.char (by decide)
      (.anyDirectories (.inr rfl) (.char (by decide) .nil))))))
  · exact .cons rfl (.cons ⟨'a', rfl⟩ (.cons rfl (.cons rfl (.cons rfl
      (.cons (.inr ⟨['u', '/', 'v'], rfl⟩) (.cons rfl .nil))))))

/-- In a pattern that ends with `**/` the slash is lost: `a/**/` leaves `a/b` out, although the
text behind the first slash is neither empty nor ends with a slash. -/
theorem final_slash_is_lost :
    ∃ e tokens, ofPatterns ["a/**/"] = .ok e ∧ Glob.Written none "a/**/".toList tokens ∧
      e.excludes (Path.ofString "a/b") = true ∧
      ¬ ∃ pieces, List.Forall₂ Glob.Token.Takes tokens pieces ∧
        pieces.flatten = (Path.ofString "a/b").slashed := by
  refine ⟨⟨[[.char 'a', .char '/', .anyDirectories]]⟩, [.char 'a', .char '/', .anyDirectories],
    rfl, ?_, rfl, ?_⟩
  · exact .char (by decide) (.char (by decide) (.anyDirectories (.inr rfl) .nil))
  · have hslashed : (Path.ofString "a/b").slashed = ['a', '/', 'b'] := rfl
    rw [hslashed]
    rintro ⟨pieces, hpieces, htext⟩
    simp only [List.forall₂_cons_left_iff, List.forall₂_nil_left_iff, Glob.Token.Takes] at hpieces
    obtain ⟨_, _, rfl, ⟨_, _, rfl, ⟨piece, _, hpiece, rfl, rfl⟩, rfl⟩, rfl⟩ := hpieces
    have hlast : piece = ['b'] := by simpa using htext
    rw [hlast] at hpiece
    rcases hpiece with h | ⟨before, h⟩
    · cases h
    · simpa using congrArg List.getLast? h

theorem exists_excludes :
    (∃ e, ofPatterns texts = .ok e) ↔ ∀ t ∈ texts, Acceptable t.toList := by
  constructor
  · rintro ⟨e, h⟩ t ht
    exact acceptable_of_ofPatterns h ht
  · intro hall
    cases hcompile : compileAll texts with
    | ok ps => exact ⟨⟨ps⟩, ofPatterns_eq_ok.2 hcompile⟩
    | error f =>
      obtain ⟨front, t, back, reason, rfl, -, hrefused, -⟩ := compileAll_eq_error.1 hcompile
      exact absurd (hall t (by simp)) (exists_refused.1 ⟨reason, hrefused⟩)

/-- Only what the patterns are counts, not their order and not how often they are given. -/
theorem excludes_congr {texts' : List String} {e' : Excludes} (h : ofPatterns texts = .ok e)
    (h' : ofPatterns texts' = .ok e') (hsame : ∀ t, t ∈ texts' ↔ t ∈ texts) (path : Path) :
    e'.excludes path = e.excludes path := by
  rw [Bool.eq_iff_iff, excludes_iff h, excludes_iff h']
  simp only [hsame]

end Excludes

namespace ReferenceArgs

open Excludes

variable {args : ReferenceArgs} {config : Config} {configPath : Option Path}

theorem resolve_eq_error {f : Failure} :
    args.resolve config configPath = .error f ↔
      ofPatterns (config.exclude ++ args.excludes) = .error f := by
  unfold resolve allPatterns
  cases ofPatterns (config.exclude ++ args.excludes) <;> simp

theorem excludes_of_resolve {p : Plan} (h : args.resolve config configPath = .ok p) :
    ofPatterns (config.exclude ++ args.excludes) = .ok p.settings.excludes := by
  unfold resolve allPatterns at h
  cases hex : ofPatterns (config.exclude ++ args.excludes) with
  | error f =>
    rw [hex] at h
    cases h
  | ok e =>
    rw [hex] at h
    cases h
    rfl

/-- The patterns of the file and of the command line are one list, those of the file first. It is
refused if one of the patterns refers to a parent, is absolute or breaks the syntax, and the first
that does is told with the first of these reasons. Otherwise a path is left out if the patterns of
the file alone or those of the command line alone leave it out, so that the order of the patterns
and repeated ones are of no account. -/
theorem resolve_excludes (args : ReferenceArgs) (config : Config) (configPath : Option Path) :
    (∀ f, args.resolve config configPath = .error f ↔
      ∃ front t back reason, config.exclude ++ args.excludes = front ++ t :: back ∧
        (∀ u ∈ front, Acceptable u.toList) ∧ Refused t.toList reason ∧
        f = .invalidExcludePattern t reason) ∧
    ((∃ f, args.resolve config configPath = .error f) ↔
      ∃ t ∈ config.exclude ++ args.excludes,
        ParentReference t.toList ∨ Absolute t.toList ∨ ¬ Readable t.toList) ∧
    ∀ p, args.resolve config configPath = .ok p →
      (∃ fromFile fromWords, ofPatterns config.exclude = .ok fromFile ∧
        ofPatterns args.excludes = .ok fromWords ∧
        ∀ path, p.settings.excludes.excludes path =
          (fromFile.excludes path || fromWords.excludes path)) ∧
      ∀ (args' : ReferenceArgs) (config' : Config) (configPath' : Option Path),
        (∀ t, t ∈ config'.exclude ++ args'.excludes ↔ t ∈ config.exclude ++ args.excludes) →
        ∃ p', args'.resolve config' configPath' = .ok p' ∧
          ∀ path, p'.settings.excludes.excludes path = p.settings.excludes.excludes path := by
  refine ⟨fun f => ?_, ?_, fun p hp => ⟨?_, fun args' config' configPath' hsame => ?_⟩⟩
  · rw [resolve_eq_error, ofPatterns_eq_error, compileAll_eq_error]
  · have hfails : (∃ f, args.resolve config configPath = .error f) ↔
        ¬ ∃ e, ofPatterns (config.exclude ++ args.excludes) = .ok e := by
      simp only [resolve_eq_error]
      cases ofPatterns (config.exclude ++ args.excludes) <;> simp
    rw [hfails, exists_excludes]
    simp only [not_forall, exists_prop, not_acceptable_iff]
  · have hall := excludes_of_resolve hp
    have hacceptable := exists_excludes.1 ⟨_, hall⟩
    obtain ⟨fromFile, hfile⟩ : ∃ e, ofPatterns config.exclude = .ok e :=
      exists_excludes.2 fun t ht => hacceptable t (List.mem_append_left _ ht)
    obtain ⟨fromWords, hwords⟩ : ∃ e, ofPatterns args.excludes = .ok e :=
      exists_excludes.2 fun t ht => hacceptable t (List.mem_append_right _ ht)
    refine ⟨fromFile, fromWords, hfile, hwords, fun path => ?_⟩
    rw [Bool.eq_iff_iff, Bool.or_eq_true, excludes_iff hall, excludes_iff hfile,
      excludes_iff hwords]
    simp only [List.mem_append, or_and_right, exists_or]
  · have hall := excludes_of_resolve hp
    have hacceptable := exists_excludes.1 ⟨_, hall⟩
    obtain ⟨e', hall'⟩ : ∃ e, ofPatterns (config'.exclude ++ args'.excludes) = .ok e :=
      exists_excludes.2 fun t ht => hacceptable t ((hsame t).1 ht)
    cases hp' : args'.resolve config' configPath' with
    | error f => cases (resolve_eq_error.1 hp').symm.trans hall'
    | ok p' =>
      exact ⟨p', rfl, excludes_congr hall (excludes_of_resolve hp') hsame⟩

end ReferenceArgs
end RefManifest
