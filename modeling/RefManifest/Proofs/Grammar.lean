import RefManifest.Proofs.Template

/-!
# RefManifest.Proofs.Grammar

The grammar of directives: which lines hold one, and which one.

A line is trimmed, its comment is taken off, and the body is trimmed again. Both steps are given
here as relations that know nothing of the order in which the line is looked at: `Comment` has one
rule for each style of comment, and `Says` one for each kind of directive. The two ends of a
template comment mirror each other, so one lemma about the opening (`opening_iff`), read backwards,
is also the one about the closing.

* `commentBody?_eq_some`: a line has a body exactly if it is a comment, and then only one.
* `ofBody?_eq_some`: a body says a directive exactly by one of the rules.
* `parseLine_eq_some`: both together.
-/

namespace RefManifest

open Text

namespace Directive

variable {s t body inner closed word : List Char} {d : Directive} {name : String}

/-- A trim mark, which may be missing. -/
def IsDash (s : List Char) : Prop := s = [] ∨ s = ['-']

/-- The text is a comment with that body. Either it opens with marks, all of which are left out of
the body, or it is one template comment, with blanks and a trim mark at either end. A body stays on
one line. -/
inductive Comment : List Char → List Char → Prop where
  | hash (marks : Nat) {body : List Char} (hbody : body.head? ≠ some '#') (hline : '\n' ∉ body) :
      Comment (List.replicate (marks + 1) '#' ++ body) body
  | template {dash blanks body blanks' dash' : List Char} (hdash : IsDash dash)
      (hblanks : Blanks blanks) (hline : '\n' ∉ body) (hblanks' : Blanks blanks')
      (hdash' : IsDash dash') :
      Comment (['{', '{'] ++ dash ++ blanks ++ ['/', '*'] ++ body ++ ['*', '/'] ++ blanks' ++
        dash' ++ ['}', '}']) body

theorem hashBody?_eq_some :
    hashBody? t = some body ↔
      ∃ marks, t = List.replicate (marks + 1) '#' ++ body ∧ body.head? ≠ some '#' := by
  constructor
  · intro h
    unfold hashBody? at h
    split at h
    · rename_i rest
      have hbody := Option.some.inj h
      have hmarks : rest.takeWhile (· == '#') =
          List.replicate (rest.takeWhile (· == '#')).length '#' :=
        List.eq_replicate_of_mem fun c hc => by simpa using List.mem_takeWhile_imp hc
      refine ⟨(rest.takeWhile (· == '#')).length, ?_, fun hhead => ?_⟩
      · rw [List.replicate_succ, ← hmarks, ← hbody, List.cons_append,
          List.takeWhile_append_dropWhile]
      · have hstop := List.head?_dropWhile_not (· == '#') rest
        rw [hbody, hhead] at hstop
        simp at hstop
    · cases h
  · rintro ⟨marks, rfl, hbody⟩
    rw [List.replicate_succ, List.cons_append, hashBody?,
      List.dropWhile_append_of_pos (by simp)]
    cases body with
    | nil => rfl
    | cons c rest =>
      have hc : (c == '#') = false := by simpa using hbody
      rw [List.dropWhile_cons, hc]
      rfl

theorem exists_dash (s : List Char) : ∃ dash, IsDash dash ∧ s = dash ++ dropDash s := by
  unfold dropDash
  split
  · exact ⟨['-'], .inr rfl, rfl⟩
  · exact ⟨[], .inl rfl, rfl⟩

theorem dropDash_append {dash : List Char} (h : IsDash dash) (hs : s.head? ≠ some '-') :
    dropDash (dash ++ s) = s := by
  rcases h with rfl | rfl
  · rw [List.nil_append, dropDash]
    rintro rest rfl
    exact hs rfl
  · rfl

/-- The way into a template comment: a trim mark, blanks, and the opening of the body. -/
theorem opening_iff :
    stripLead? ['/', '*'] (trimStart (dropDash s)) = some inner ↔
      ∃ dash blanks, IsDash dash ∧ Blanks blanks ∧ s = dash ++ blanks ++ ['/', '*'] ++ inner := by
  rw [stripLead?_eq_some]
  constructor
  · intro h
    obtain ⟨dash, hdash, hs⟩ := exists_dash s
    obtain ⟨blanks, hblanks, hrest⟩ := exists_blanks (dropDash s)
    rw [hrest, h] at hs
    exact ⟨dash, blanks, hdash, hblanks, by simpa using hs⟩
  · rintro ⟨dash, blanks, hdash, hblanks, rfl⟩
    have hhead : (blanks ++ (['/', '*'] ++ inner)).head? ≠ some '-' := by
      cases blanks with
      | nil => simp
      | cons c blanks =>
        intro h
        cases h
        exact absurd (hblanks '-' (List.mem_cons_self ..)) (by decide)
    rw [List.append_assoc, List.append_assoc, dropDash_append hdash hhead,
      trimStart_append hblanks]
    exact trimStart_cons (by decide) _

theorem closing_iff :
    stripTail? ['*', '/'] (trimEnd (dropDash closed.reverse).reverse) = some body ↔
      ∃ blanks dash, Blanks blanks ∧ IsDash dash ∧
        closed = body ++ ['*', '/'] ++ blanks ++ dash := by
  have hmirror : stripTail? ['*', '/'] (trimEnd (dropDash closed.reverse).reverse) = some body ↔
      stripLead? ['/', '*'] (trimStart (dropDash closed.reverse)) = some body.reverse := by
    rw [stripTail?, trimEnd, List.reverse_reverse, List.reverse_reverse, Option.map_eq_some_iff]
    constructor
    · rintro ⟨r, hr, rfl⟩
      rwa [List.reverse_reverse]
    · intro h
      exact ⟨_, h, List.reverse_reverse body⟩
  have hdash : ∀ {dash}, IsDash dash → dash.reverse = dash := by
    rintro dash (rfl | rfl) <;> rfl
  rw [hmirror, opening_iff]
  constructor
  · rintro ⟨dash, blanks, hd, hb, h⟩
    refine ⟨blanks.reverse, dash, fun c hc => hb c (List.mem_reverse.1 hc), hd, ?_⟩
    have hback := congrArg List.reverse h
    simpa [hdash hd] using hback
  · rintro ⟨blanks, dash, hb, hd, rfl⟩
    refine ⟨dash, blanks.reverse, hd, fun c hc => hb c (List.mem_reverse.1 hc), ?_⟩
    simp [hdash hd]

theorem templateBody?_eq_some :
    templateBody? t = some body ↔
      ∃ dash blanks blanks' dash', IsDash dash ∧ Blanks blanks ∧ Blanks blanks' ∧ IsDash dash' ∧
        t = ['{', '{'] ++ dash ++ blanks ++ ['/', '*'] ++ body ++ ['*', '/'] ++ blanks' ++ dash' ++
          ['}', '}'] := by
  have hstages : templateBody? t = some body ↔
      ∃ opened inner closed, stripLead? ['{', '{'] t = some opened ∧
        stripLead? ['/', '*'] (trimStart (dropDash opened)) = some inner ∧
        stripTail? ['}', '}'] inner = some closed ∧
        stripTail? ['*', '/'] (trimEnd (dropDash closed.reverse).reverse) = some body := by
    unfold templateBody?
    cases hopened : stripLead? ['{', '{'] t with
    | none => simp
    | some opened =>
      cases hinner : stripLead? ['/', '*'] (trimStart (dropDash opened)) with
      | none => simp [hinner]
      | some inner =>
        cases hclosed : stripTail? ['}', '}'] inner with
        | none => simp [hinner, hclosed]
        | some closed => simp [hinner, hclosed]
  simp only [hstages, stripLead?_eq_some (p := ['{', '{']), opening_iff,
    stripTail?_eq_some (t := ['}', '}']), closing_iff]
  constructor
  · rintro ⟨opened, inner, closed, rfl, ⟨dash, blanks, hd, hb, rfl⟩, rfl,
      ⟨blanks', dash', hb', hd', rfl⟩⟩
    exact ⟨dash, blanks, blanks', dash', hd, hb, hb', hd', by simp⟩
  · rintro ⟨dash, blanks, blanks', dash', hd, hb, hb', hd', rfl⟩
    exact ⟨dash ++ blanks ++ ['/', '*'] ++ (body ++ ['*', '/'] ++ blanks' ++ dash' ++ ['}', '}']),
      _, body ++ ['*', '/'] ++ blanks' ++ dash', by simp, ⟨dash, blanks, hd, hb, rfl⟩, rfl,
      ⟨blanks', dash', hb', hd', rfl⟩⟩

/-- A text is a comment in one way at most, and its body is what it is looked at for. -/
theorem comment_iff :
    Comment t body ↔ (hashBody? t).or (templateBody? t) = some body ∧ '\n' ∉ body := by
  constructor
  · intro h
    cases h with
    | hash marks hbody hline =>
      rw [hashBody?_eq_some.2 ⟨marks, rfl, hbody⟩]
      exact ⟨rfl, hline⟩
    | template hdash hblanks hline hblanks' hdash' =>
      -- It opens with a brace, so it opens with no mark.
      refine ⟨?_, hline⟩
      rw [templateBody?_eq_some.2 ⟨_, _, _, _, hdash, hblanks, hblanks', hdash', rfl⟩]
      rfl
  · rintro ⟨hfound, hline⟩
    rcases Option.or_eq_some_iff.1 hfound with hhash | ⟨-, htemplate⟩
    · obtain ⟨marks, rfl, hbody⟩ := hashBody?_eq_some.1 hhash
      exact .hash marks hbody hline
    · obtain ⟨dash, blanks, blanks', dash', hd, hb, hb', hd', rfl⟩ :=
        templateBody?_eq_some.1 htemplate
      exact .template hd hb hline hb' hd'

theorem Comment.unique {body' : List Char} (h : Comment t body) (h' : Comment t body') :
    body' = body :=
  Option.some.inj ((comment_iff.1 h').1.symm.trans (comment_iff.1 h).1)

theorem commentBody?_eq_some : commentBody? s = some body ↔ Comment (trim s) body := by
  have hlooked : commentBody? s =
      ((hashBody? (trim s)).or (templateBody? (trim s))).filter fun b => '\n' ∉ b := by
    simp only [commentBody?]
    cases hashBody? (trim s) with
    | some b => by_cases hline : '\n' ∈ b <;> simp [Option.filter_some, hline]
    | none =>
      cases templateBody? (trim s) with
      | none => rfl
      | some b => by_cases hline : '\n' ∈ b <;> simp [Option.filter_some, hline]
  rw [hlooked, Option.filter_eq_some_iff, comment_iff, decide_eq_true_iff]

/-! ## Bodies -/

/-- The words that declare a status. -/
def statusTokens : List (List Char × Directive) :=
  [(componentRequiredToken, .componentRequirement .required),
    (componentOptionalToken, .componentRequirement .optional),
    (requiredToken, .templateRequirement .required),
    (optionalToken, .templateRequirement .optional)]

/-- The directive that declares a name. -/
def naming : NameAxis → String → Directive
  | .part, name => .part name
  | .component, name => .component name

/-- The body says the directive. Either it opens with the token of a name and goes on with more
than blanks, or its first word declares a status, whatever comes after it. -/
inductive Says : List Char → Directive → Prop where
  | name (axis : NameAxis) {rest : List Char} (hrest : trim rest ≠ []) :
      Says (token axis ++ rest) (naming axis (String.ofList (trim rest)))
  | status {word body : List Char} {d : Directive} (htoken : (word, d) ∈ statusTokens)
      (hword : IsFirstWord word body) : Says body d

theorem name?_eq_some {rest : List Char} :
    name? rest = some name ↔ trim rest ≠ [] ∧ name = String.ofList (trim rest) := by
  unfold name?
  cases trim rest with
  | nil => simp
  | cons c cs => simp [eq_comm]

theorem ofWord?_eq_some : ofWord? word = some d ↔ (word, d) ∈ statusTokens := by
  constructor
  · intro h
    unfold ofWord? at h
    split_ifs at h with h1 h2 h3 h4 <;> cases h
    · simp [statusTokens, h1]
    · simp [statusTokens, h2]
    · simp [statusTokens, h3]
    · simp [statusTokens, h4]
  · intro h
    simp only [statusTokens, List.mem_cons, Prod.mk.injEq, List.not_mem_nil, or_false] at h
    rcases h with ⟨rfl, rfl⟩ | ⟨rfl, rfl⟩ | ⟨rfl, rfl⟩ | ⟨rfl, rfl⟩ <;> decide

/-- The token of a name and a word that declares a status differ before either ends. -/
theorem token_apart (axis : NameAxis) :
    ∀ entry ∈ statusTokens, ¬ token axis <+: entry.1 ∧ ¬ entry.1 <+: token axis := by
  cases axis <;> decide

theorem token_cons (axis : NameAxis) : token axis = 'c' :: (token axis).tail := by
  cases axis <;> decide

/-- A text whose first word declares a status opens with the token of no name. -/
theorem stripLead?_of_status (axis : NameAxis) (htoken : (word, d) ∈ statusTokens)
    (hword : IsFirstWord word s) : stripLead? (token axis) s = none := by
  obtain ⟨-, -, before, after, hbefore, rfl, -⟩ := hword
  obtain ⟨hapart, hapart'⟩ := token_apart axis _ htoken
  rw [List.append_assoc]
  cases before with
  | nil =>
    have hopens : stripLead? word ([] ++ (word ++ after)) = some after :=
      stripLead?_eq_some.2 (List.nil_append _)
    exact stripLead?_of_apart hopens hapart hapart'
  | cons c before =>
    -- The token does not begin with a blank.
    have hc : 'c' ≠ c := by
      rintro rfl
      exact absurd (hbefore 'c' (List.mem_cons_self ..)) (by decide)
    rw [token_cons, List.cons_append, stripLead?, if_neg hc]

theorem ofBody?_eq_some : ofBody? s = some d ↔ Says (trim s) d := by
  simp only [ofBody?]
  generalize trim s = b
  constructor
  · intro h
    cases hpart : stripLead? partToken b with
    | some rest =>
      rw [hpart] at h
      obtain ⟨name, hname, rfl⟩ := Option.map_eq_some_iff.1 h
      obtain ⟨hrest, rfl⟩ := name?_eq_some.1 hname
      rw [stripLead?_eq_some.1 hpart]
      exact .name .part hrest
    | none =>
      rw [hpart] at h
      cases hcomponent : stripLead? componentToken b with
      | some rest =>
        rw [hcomponent] at h
        obtain ⟨name, hname, rfl⟩ := Option.map_eq_some_iff.1 h
        obtain ⟨hrest, rfl⟩ := name?_eq_some.1 hname
        rw [stripLead?_eq_some.1 hcomponent]
        exact .name .component hrest
      | none =>
        rw [hcomponent] at h
        obtain ⟨word, hword, hd⟩ := Option.bind_eq_some_iff.1 h
        exact .status (ofWord?_eq_some.1 hd) (firstWord?_eq_some.1 hword)
  · intro h
    cases h with
    | @name axis rest hrest =>
      have hname := name?_eq_some.2 ⟨hrest, rfl⟩
      cases axis with
      | part =>
        have hpart : stripLead? partToken (partToken ++ rest) = some rest :=
          stripLead?_eq_some.2 rfl
        simp only [token, hpart, hname, Option.map_some, naming]
      | component =>
        have hcomponent : stripLead? componentToken (componentToken ++ rest) = some rest :=
          stripLead?_eq_some.2 rfl
        have hpart := stripLead?_of_apart (p := partToken) hcomponent (by decide) (by decide)
        simp only [token, hpart, hcomponent, hname, Option.map_some, naming]
    | status htoken hword =>
      have hpart : stripLead? partToken b = none := stripLead?_of_status .part htoken hword
      have hcomponent : stripLead? componentToken b = none :=
        stripLead?_of_status .component htoken hword
      simp only [hpart, hcomponent, firstWord?_eq_some.2 hword, Option.bind_some,
        ofWord?_eq_some.2 htoken]

/-- A line holds a directive exactly if it is a comment, up to blanks around it, whose body says
that directive, up to blanks again. No line is a comment with two bodies. -/
theorem parseLine_eq_some :
    (∀ line d, parseLine line = some d ↔ ∃ body, Comment (trim line) body ∧ Says (trim body) d) ∧
      ∀ t body body', Comment t body → Comment t body' → body' = body := by
  refine ⟨fun line d => ?_, fun t body body' => Comment.unique⟩
  simp only [parseLine, Option.bind_eq_some_iff, commentBody?_eq_some, ofBody?_eq_some]

/-- The two ends of a template comment do not share a character. -/
example : commentBody? "\x7b\x7b/*/\x7d\x7d".toList = none := by decide

example : parseLine " ## cluster-compare-component-required for now".toList =
    some (.componentRequirement .required) := by
  decide

end Directive
end RefManifest
