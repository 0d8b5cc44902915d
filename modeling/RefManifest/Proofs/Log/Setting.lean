import Mathlib.Data.List.TakeWhile
import RefManifest.Proofs.Log.Filter
import RefManifest.Proofs.Text.Blank

/-!
# RefManifest.Proofs.Log.Setting

Log settings, and which notices pass under one.

A setting asks for levels: for everything, for the topics that a target opens, and of these perhaps
for what has a field, or a field with a value. Written down and read again, each request gives its
rules (`ruleOf?_text`); one for a value is looked at as a pattern (`isSound_of_literal`) and then
adds nothing. So a setting is the rules of its requests (`parse?_settingOf`), of which one decides
on a notice (`passes_choose`).
-/

namespace RefManifest
namespace Log

variable {n : Notice}

/-- The octets of the first character come off the size first, and there is one at least. -/
theorem exists_size_cons (c : Char) (a : List Char) :
    ∃ m, size (c :: a) = m + 1 ∧ m + 1 - c.utf8Size = size a := by
  have hpos := c.utf8Size_pos
  refine ⟨c.utf8Size - 1 + size a, ?_, ?_⟩
  · simp only [size]
    omega
  · omega

theorem dropOctets_size (a b : List Char) : dropOctets (size a) (a ++ b) = b := by
  induction a with
  | nil => simp [size, dropOctets]
  | cons c a ih =>
    obtain ⟨m, hm, hrest⟩ := exists_size_cons c a
    rw [hm, List.cons_append, dropOctets, hrest, ih]

theorem takeOctets_size (a b : List Char) : takeOctets (size a) (a ++ b) = a := by
  induction a with
  | nil => cases b <;> rfl
  | cons c a ih =>
    obtain ⟨m, hm, hrest⟩ := exists_size_cons c a
    rw [hm, List.cons_append, takeOctets, hrest, ih]

theorem size_append (a b : List Char) : size (a ++ b) = size a + size b := by
  induction a with
  | nil => simp [size]
  | cons c a ih =>
    rw [List.cons_append, size, size, ih]
    omega

theorem dropOctets_past (a b : List Char) {d : Char} (hd : d.utf8Size = 1) :
    dropOctets (size a + 1) (a ++ d :: b) = b := by
  have hsize : size a + 1 = size (a ++ [d]) := by simp [size_append, size, hd]
  rw [hsize, List.append_cons a d b]
  exact dropOctets_size _ _

namespace Pattern

/-- A character that stands for itself in a pattern, or for any character or a position. -/
def IsLiteral (c : Char) : Prop := c ∉ "()|[?*+\x7b\\".toList

theorem isSound_of_literal {s : List Char} (h : ∀ c ∈ s, IsLiteral c) {fuel : Nat}
    (hfuel : s.length ≤ fuel) (repeatable : Bool) :
    isSound fuel true [] [] repeatable s = true := by
  induction s generalizing fuel repeatable with
  | nil => cases fuel <;> rfl
  | cons c s ih =>
    obtain ⟨hc, hs⟩ := List.forall_mem_cons.1 h
    cases fuel with
    | zero => simp at hfuel
    | succ fuel =>
      have hrest := ih hs (Nat.le_of_succ_le_succ hfuel) true
      have hplain : c ≠ '(' ∧ c ≠ ')' ∧ c ≠ '|' ∧ c ≠ '[' ∧ c ≠ '?' ∧ c ≠ '*' ∧ c ≠ '+' ∧
          c ≠ '\x7b' ∧ c ≠ '\\' := by
        simpa [IsLiteral] using hc
      simp [isSound, isRepetition, hplain, hrest]

end Pattern

/-! ## Settings -/

/-- What a piece of a log setting asks for: a level for everything, or for the topics that a target
opens, and of these perhaps only what has a field, or a field with a value. -/
inductive Asked where
  | everything (level : Option Level)
  | topics (target : List Char) (level : Option Level)
  | field (target name : List Char) (level : Option Level)
  | value (target name pattern : List Char) (level : Option Level)

/-- How a level is spelled; without one nothing is let through. -/
def word (level : Option Level) : List Char :=
  level.elim "OFF".toList fun l => l.label.toList

/-- The rank up to which a level lets notices through. -/
def reach (level : Option Level) : Nat := level.elim 0 Level.rank

namespace Asked

def bracketed (target field : List Char) (level : Option Level) : List Char :=
  target ++ '[' :: '\x7b' :: (field ++ '\x7d' :: ']' :: '=' :: word level)

def text : Asked → List Char
  | everything level => word level
  | topics target level => target ++ '=' :: word level
  | field target name level => bracketed target name level
  | value target name pattern level => bracketed target (name ++ '=' :: pattern) level

/-- No notice has a field with such a value, so a request for one adds nothing. -/
def rules : Asked → Filter
  | everything level => [⟨[], none, reach level⟩]
  | topics target level => [⟨target, none, reach level⟩]
  | field target name level => [⟨target, some name, reach level⟩]
  | value _ _ _ _ => []

/-- A target starts as one can, and holds no character that ends it. -/
structure IsTarget (target : List Char) : Prop where
  start : ∀ c ∈ target.head?, mayStart c = true ∧ Text.isBlank c = false
  plain : ∀ c ∈ target, c ∉ "=[,".toList

def IsName (name : List Char) : Prop := name ≠ [] ∧ ∀ c ∈ name, c ∉ "=,\x7d".toList

def IsValue (pattern : List Char) : Prop :=
  ∀ c ∈ pattern, c ∉ "=,\x7d".toList ∧ Pattern.IsLiteral c

/-- The parts of the request can be told apart in its text. -/
def Plain : Asked → Prop
  | everything _ => True
  | topics target _ => target ≠ [] ∧ IsTarget target
  | field target name _ => IsTarget target ∧ IsName name
  | value target name pattern _ => IsTarget target ∧ IsName name ∧ IsValue pattern

end Asked

open Asked

variable {target inside field name pattern front rest : List Char} {level : Option Level}

theorem rankAfter?_word (level : Option Level) :
    rankAfter? (word level) = some (reach level) := by
  rcases level with _ | _ | _ | _ | _ | _ <;> decide

/-- A text that ends with a level has no blanks at its end. -/
theorem trim_append_word {c : Char} (hc : Text.isBlank c = false) (rest : List Char)
    (level : Option Level) :
    Text.trim (c :: (rest ++ word level)) = c :: (rest ++ word level) := by
  obtain ⟨front, d, hword, hd⟩ : ∃ front d, word level = front ++ [d] ∧ Text.isBlank d = false := by
    refine ⟨(word level).dropLast, (word level).getLastD ' ', ?_, ?_⟩ <;>
      rcases level with _ | _ | _ | _ | _ | _ <;> decide
  rw [hword]
  refine Text.trim_eq_self ?_ ?_
  · rintro x ⟨⟩
    exact hc
  · rw [← List.append_assoc, ← List.cons_append, List.getLast?_concat]
    rintro x ⟨⟩
    exact hd

theorem trim_of_target (h : IsTarget target) {d : Char} (hd : Text.isBlank d = false)
    (rest : List Char) (level : Option Level) :
    Text.trim (target ++ d :: (rest ++ word level)) = target ++ d :: (rest ++ word level) := by
  cases target with
  | nil => exact trim_append_word hd rest level
  | cons c more =>
    have hc := (h.start c rfl).2
    simpa using trim_append_word hc (more ++ d :: rest) level

theorem takeWhile_target (h : IsTarget target) {d : Char} (hd : d = '=' ∨ d = '[')
    (rest : List Char) :
    (target ++ d :: rest).takeWhile (fun x => x != '=' && x != '[') = target := by
  have hplain : ∀ x ∈ target, (x != '=' && x != '[') = true := by
    intro x hx
    have hx' := h.plain x hx
    simp_all
  rw [List.takeWhile_append_of_pos hplain]
  rcases hd with rfl | rfl <;> simp

theorem ruleOf?_equals (hne : target ≠ []) (h : IsTarget target)
    (htrim : Text.trim (target ++ '=' :: rest) = target ++ '=' :: rest) :
    ruleOf? (target ++ '=' :: rest) = (rankAfter? rest).map fun rank => [⟨target, none, rank⟩] := by
  have htake := takeWhile_target h (.inl rfl) rest
  have hcut := takeOctets_size target ('=' :: rest)
  have hdrop : (target ++ '=' :: rest).drop target.length = '=' :: rest := List.drop_left
  have hrank := dropOctets_past target rest (d := '=') rfl
  obtain ⟨c, more, hcons⟩ := List.exists_cons_of_ne_nil hne
  have hstart := (h.start c (by simp [hcons])).1
  simp only [ruleOf?, htrim, htake, hcut, hdrop, hrank]
  simp [hcons, hstart]

theorem ruleOf?_bracket (h : IsTarget target) {request : Request}
    (htrim : Text.trim (target ++ '[' :: inside) = target ++ '[' :: inside)
    (hrequest : request? (target ++ '[' :: inside) (size target + 1) inside =
      some (request, rest)) :
    ruleOf? (target ++ '[' :: inside) =
      ruleBehind? (target ++ '[' :: inside) target request rest (target ++ '[' :: inside) := by
  have htake := takeWhile_target h (.inr rfl) inside
  have hcut := takeOctets_size target ('[' :: inside)
  have hdrop : (target ++ '[' :: inside).drop target.length = '[' :: inside := List.drop_left
  simp only [ruleOf?, htrim, htake, hcut, hdrop]
  cases target with
  | nil =>
    rw [List.nil_append] at hrequest ⊢
    simp [hrequest]
  | cons c more =>
    have hstart := (h.start c rfl).1
    rw [List.cons_append] at hrequest ⊢
    simp [hstart, hrequest]

theorem request?_bracketed (hne : field ≠ []) (hfield : ∀ c ∈ field, c ≠ '\x7d')
    (target rest : List Char) :
    request? (target ++ '[' :: '\x7b' :: (field ++ '\x7d' :: ']' :: rest)) (size target + 1)
        ('\x7b' :: (field ++ '\x7d' :: ']' :: rest)) =
      (fieldRequest? field).map fun request => (request, rest) := by
  have htake : (field ++ '\x7d' :: ']' :: rest).takeWhile (fun c => c != '\x7d') = field := by
    rw [List.takeWhile_append_of_pos (by simpa using hfield)]
    simp
  have hdrop : (field ++ '\x7d' :: ']' :: rest).drop field.length = '\x7d' :: ']' :: rest :=
    List.drop_left
  have hpast := dropOctets_past (target ++ ['[']) (field ++ '\x7d' :: ']' :: rest)
    (d := '\x7b') rfl
  have hsize : size (target ++ ['[']) = size target + 1 := by
    rw [size_append]
    rfl
  rw [hsize, ← List.append_cons] at hpast
  have hcut := takeOctets_size field ('\x7d' :: ']' :: rest)
  have hempty : field.isEmpty = false := by simpa using hne
  simp [request?, htake, hdrop, hempty, size, hpast, hcut]

theorem fieldRequest?_name (h : IsName name) : fieldRequest? name = some (.field name) := by
  have htake : name.takeWhile (fun c => c != '=') = name := by
    rw [List.takeWhile_eq_self_iff]
    intro c hc
    have := h.2 c hc
    simp_all
  simp [fieldRequest?, htake]

theorem fieldRequest?_value (h : IsName name) (hvalue : IsValue pattern) :
    fieldRequest? (name ++ '=' :: pattern) = some .value := by
  have htake : (name ++ '=' :: pattern).takeWhile (fun c => c != '=') = name := by
    rw [List.takeWhile_append_of_pos]
    · simp
    · intro c hc
      have := h.2 c hc
      simp_all
  have hpattern : pattern.takeWhile (fun c => c != '=') = pattern := by
    rw [List.takeWhile_eq_self_iff]
    intro c hc
    have := (hvalue c hc).1
    simp_all
  have hsound : isPattern pattern = true := by
    have hliteral := Pattern.isSound_of_literal (fun c hc => (hvalue c hc).2) (Nat.le_refl _)
    rw [isPattern, hliteral, Bool.or_true]
  simp [fieldRequest?, htake, hpattern, hsound]

/-- What a request in brackets adds to the filter. -/
def Request.adds (target : List Char) (rank : Nat) : Request → Filter
  | .field name => [⟨target, some name, rank⟩]
  | _ => []

theorem ruleBehind?_level {piece : List Char} (hpiece : piece = front ++ word level)
    (target : List Char) (request : Request) :
    ruleBehind? piece target request ('=' :: word level) piece =
      some (request.adds target (reach level)) := by
  have hfront : size piece - size (word level) = size front := by
    rw [hpiece, size_append]
    omega
  have hlevel : dropOctets (size piece - size (word level)) piece = word level := by
    rw [hfront, hpiece, dropOctets_size]
  simp only [ruleBehind?, hlevel, rankAfter?_word]
  cases request <;> rfl

/-- A request in brackets with a level behind it. -/
theorem ruleOf?_bracketed (h : IsTarget target) (hne : field ≠ [])
    (hfield : ∀ c ∈ field, c ≠ '\x7d') {request : Request}
    (hrequest : fieldRequest? field = some request) (level : Option Level) :
    ruleOf? (bracketed target field level) = some (request.adds target (reach level)) := by
  have hread := request?_bracketed hne hfield target ('=' :: word level)
  rw [hrequest, Option.map_some] at hread
  have htrim := trim_of_target h (d := '[') (by decide)
    ('\x7b' :: (field ++ ['\x7d', ']', '='])) level
  have hassoc : '\x7b' :: (field ++ ['\x7d', ']', '=']) ++ word level =
      '\x7b' :: (field ++ '\x7d' :: ']' :: '=' :: word level) := by simp
  rw [hassoc] at htrim
  rw [bracketed, ruleOf?_bracket h htrim hread]
  have hpiece : target ++ '[' :: '\x7b' :: (field ++ '\x7d' :: ']' :: '=' :: word level) =
      (target ++ '[' :: '\x7b' :: (field ++ ['\x7d', ']', '='])) ++ word level := by simp
  exact ruleBehind?_level hpiece target request

theorem ruleOf?_text {a : Asked} (h : a.Plain) : ruleOf? a.text = some a.rules := by
  cases a with
  | everything level => rcases level with _ | _ | _ | _ | _ | _ <;> decide
  | topics target level =>
    have htrim := trim_of_target h.2 (d := '=') (by decide) [] level
    rw [List.nil_append] at htrim
    rw [Asked.text, ruleOf?_equals h.1 h.2 htrim, rankAfter?_word]
    rfl
  | field target name level =>
    refine ruleOf?_bracketed h.1 h.2.1 (fun c hc => ?_) (fieldRequest?_name h.2) level
    have := h.2.2 c hc
    simp_all
  | value target name pattern level =>
    refine ruleOf?_bracketed h.1 (by simp) (fun c hc => ?_) (fieldRequest?_value h.2.1 h.2.2) level
    rcases List.mem_append.1 hc with hc | hc
    · have := h.2.1.2 c hc
      simp_all
    · rcases List.mem_cons.1 hc with rfl | hc
      · decide
      · have := (h.2.2 c hc).1
        simp_all

theorem text_ne_nil (a : Asked) : a.text ≠ [] := by
  cases a with
  | everything level => rcases level with _ | _ | _ | _ | _ | _ <;> decide
  | topics | field | value => simp [Asked.text, bracketed]

theorem comma_notMem_text {a : Asked} (h : a.Plain) : ',' ∉ a.text := by
  have hword : ∀ level : Option Level, ',' ∉ word level := by
    intro level
    rcases level with _ | _ | _ | _ | _ | _ <;> decide
  cases a with
  | everything level => exact hword level
  | topics target level =>
    have htarget : ',' ∉ target := fun hmem => h.2.plain _ hmem (by decide)
    simp [Asked.text, htarget, hword level]
  | field target name level =>
    have htarget : ',' ∉ target := fun hmem => h.1.plain _ hmem (by decide)
    have hname : ',' ∉ name := fun hmem => h.2.2 _ hmem (by decide)
    simp [Asked.text, bracketed, htarget, hname, hword level]
  | value target name pattern level =>
    have htarget : ',' ∉ target := fun hmem => h.1.plain _ hmem (by decide)
    have hname : ',' ∉ name := fun hmem => h.2.1.2 _ hmem (by decide)
    have hpattern : ',' ∉ pattern := fun hmem => (h.2.2 _ hmem).1 (by decide)
    simp [Asked.text, bracketed, htarget, hname, hpattern, hword level]

theorem pieces_eq_splitOn (s : List Char) : pieces s = s.splitOn ',' := by
  induction s with
  | nil => rfl
  | cons c s ih =>
    obtain ⟨p, ps, hsplit⟩ := List.exists_cons_of_ne_nil (List.splitOn_ne_nil ',' s)
    rw [List.splitOn] at hsplit ih ⊢
    rw [List.splitOnP_cons_eq_if_modifyHead, pieces, ih, hsplit]
    simp only [List.modifyHead_cons, beq_iff_eq]

/-- The setting that asks for all of these. -/
def settingOf (asked : List Asked) : List Char := [','].intercalate (asked.map Asked.text)

theorem rulesOf?_texts {asked : List Asked} (h : ∀ a ∈ asked, a.Plain) :
    rulesOf? (asked.map Asked.text) = some (asked.flatMap Asked.rules) := by
  induction asked with
  | nil => rfl
  | cons a asked ih =>
    obtain ⟨ha, hrest⟩ := List.forall_mem_cons.1 h
    rw [List.map_cons, rulesOf?, ruleOf?_text ha, ih hrest, List.flatMap_cons]

/-- A setting is read back as the rules of what it asks for. -/
theorem parse?_settingOf {asked : List Asked} (h : ∀ a ∈ asked, a.Plain) :
    Filter.parse? (settingOf asked) = some (asked.flatMap Asked.rules) := by
  by_cases hne : asked = []
  · subst hne
    rfl
  · have hsplit : pieces (settingOf asked) = asked.map Asked.text := by
      rw [pieces_eq_splitOn, settingOf]
      refine List.splitOn_intercalate ',' (fun text htext => ?_) (by simpa using hne)
      obtain ⟨a, ha, rfl⟩ := List.mem_map.1 htext
      exact comma_notMem_text (h a ha)
    have hkept : (asked.map Asked.text).filter (fun p => !p.isEmpty) = asked.map Asked.text := by
      rw [List.filter_eq_self]
      intro text htext
      obtain ⟨a, -, rfl⟩ := List.mem_map.1 htext
      simpa using text_ne_nil a
    rw [Filter.parse?, hsplit, hkept, rulesOf?_texts h]

/-- Without a setting, or with one that cannot be read, the level decides alone. -/
theorem passes_choose_of_unread {setting : Option String} {level : Level}
    (h : (setting.bind fun s => Filter.parse? s.toList) = none) :
    (Filter.choose setting level).passes n = true ↔ n.level.rank ≤ level.rank := by
  rw [Filter.choose, h]
  exact Filter.passes_upTo

/-- A setting that can be read takes the place of the level. A notice passes if one of the requests
decides on it and lets it through: of those for its topic, and for a field that it has, the one with
the longest target, and of these one for a field, the last that there is. -/
theorem passes_choose {asked : List Asked} (h : ∀ a ∈ asked, a.Plain)
    (level : Level) :
    (Filter.choose (some (String.ofList (settingOf asked))) level).passes n = true ↔
      ∃ r, Filter.Decides (asked.flatMap Asked.rules) n r ∧ n.level.rank ≤ r.rank := by
  rw [Filter.choose, Option.bind_some, String.toList_ofList, parse?_settingOf h]
  exact Filter.passes_iff

/-- The longer target decides, wherever it stands. -/
example : (Filter.choose (some "ccmeta::config=off,ccmeta=debug") .error).passes
    (.log .error .config "") = false := by decide

end Log
end RefManifest
