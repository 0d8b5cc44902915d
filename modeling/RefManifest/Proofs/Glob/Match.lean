import Mathlib.Data.List.Basic
import RefManifest.Glob.Match

/-!
# RefManifest.Proofs.Glob.Match

The texts that a pattern stands for, and why the matcher finds them all.

A text belongs to a pattern if it falls into pieces, one for each token in order, each of a kind
that its token takes (`Pieces`, `Splits`). The matcher does not try all splits: once the rest of
the pattern has run out of text, the wildcard before it stops looking for a later place. That is
right because the rest does not match at any later place where it could start
(`run_exhausted`). For `**` these are the places behind a slash only, so it also takes that
`**` itself stands behind a slash or at the start, which is what `Anchored` says.

* `seek_eq_matched`, `expand_eq_matched`: a wildcard finds a place whenever there is one.
* `run_eq_matched`: the matcher accepts exactly the texts that split.
-/

namespace RefManifest
namespace Glob

variable {p rest : Pattern} {t : Token} {text s piece : List Char} {start : Bool}

/-- The character is one of those that a class lists, or lies in one of its ranges. -/
def Listed (specifiers : List Specifier) (c : Char) : Prop :=
  .char c ∈ specifiers ∨ ∃ low high, .range low high ∈ specifiers ∧ low ≤ c ∧ c ≤ high

/-- The pieces of text that a token takes where others follow it. -/
def Token.Takes : Token → List Char → Prop
  | .char a, piece => piece = [a]
  | .anyChar, piece => ∃ c, piece = [c]
  | .anySequence, _ => True
  | .anyDirectories, piece => piece = [] ∨ ∃ before, piece = before ++ ['/']
  | .within specifiers, piece => ∃ c, piece = [c] ∧ Listed specifiers c
  | .except specifiers, piece => ∃ c, piece = [c] ∧ ¬ Listed specifiers c

/-- One piece for each token. A wildcard for directories that ends the pattern takes anything. -/
inductive Pieces : Pattern → List (List Char) → Prop where
  | nil : Pieces [] []
  | final (piece : List Char) : Pieces [.anyDirectories] [piece]
  | cons {t : Token} {rest : Pattern} {piece : List Char} {pieces : List (List Char)} :
      t.Takes piece → Pieces rest pieces → Pieces (t :: rest) (piece :: pieces)

/-- The text falls into pieces that the tokens take in order. -/
def Splits (p : Pattern) (text : List Char) : Prop :=
  ∃ pieces, Pieces p pieces ∧ pieces.flatten = text

theorem splits_nil : Splits [] text ↔ text = [] := by
  constructor
  · rintro ⟨pieces, h, rfl⟩
    cases h
    rfl
  · rintro rfl
    exact ⟨[], .nil, rfl⟩

theorem splits_final (text : List Char) : Splits [.anyDirectories] text :=
  ⟨[text], .final text, by simp⟩

/-- The first token takes the front of the text, if it is not a final wildcard. -/
theorem splits_cons (h : t ≠ .anyDirectories ∨ rest ≠ []) :
    Splits (t :: rest) text ↔ ∃ piece s, text = piece ++ s ∧ t.Takes piece ∧ Splits rest s := by
  constructor
  · rintro ⟨pieces, hpieces, rfl⟩
    cases hpieces with
    | final piece => simp at h
    | cons htakes hrest => exact ⟨_, _, List.flatten_cons, htakes, _, hrest, rfl⟩
  · rintro ⟨piece, s, rfl, htakes, pieces, hrest, rfl⟩
    exact ⟨piece :: pieces, .cons htakes hrest, List.flatten_cons⟩

theorem splits_char {a : Char} :
    Splits (.char a :: rest) text ↔ ∃ s, text = a :: s ∧ Splits rest s := by
  rw [splits_cons (.inl (by simp))]
  simp [Token.Takes]

theorem splits_anySequence :
    Splits (.anySequence :: rest) text ↔ ∃ before s, text = before ++ s ∧ Splits rest s := by
  rw [splits_cons (.inl (by simp))]
  simp [Token.Takes]

theorem splits_anyDirectories (h : rest ≠ []) :
    Splits (.anyDirectories :: rest) text ↔
      Splits rest text ∨ ∃ before s, text = before ++ '/' :: s ∧ Splits rest s := by
  rw [splits_cons (.inr h)]
  constructor
  · rintro ⟨piece, s, rfl, rfl | ⟨before, rfl⟩, hs⟩
    · exact .inl hs
    · exact .inr ⟨before, s, by simp, hs⟩
  · rintro (hs | ⟨before, s, rfl, hs⟩)
    · exact ⟨[], text, rfl, .inl rfl, hs⟩
    · exact ⟨before ++ ['/'], s, by simp, .inr ⟨before, rfl⟩, hs⟩

/-- A pattern that has the empty text has only wildcards, so it has every text. -/
theorem splits_of_empty (hp : p ≠ []) (h : Splits p []) (text : List Char) : Splits p text := by
  induction p with
  | nil => exact absurd rfl hp
  | cons t rest ih =>
    have hsplit (hne : t ≠ .anyDirectories ∨ rest ≠ []) : t.Takes [] ∧ Splits rest [] := by
      obtain ⟨piece, s, hnil, htakes, hs⟩ := (splits_cons hne).1 h
      obtain ⟨rfl, rfl⟩ := List.append_eq_nil_iff.1 hnil.symm
      exact ⟨htakes, hs⟩
    cases t with
    | char a => simpa [Token.Takes] using hsplit (.inl (by simp))
    | anyChar => simpa [Token.Takes] using hsplit (.inl (by simp))
    | within specifiers => simpa [Token.Takes] using hsplit (.inl (by simp))
    | except specifiers => simpa [Token.Takes] using hsplit (.inl (by simp))
    | anySequence =>
      exact splits_anySequence.2 ⟨text, [], by simp, (hsplit (.inl (by simp))).2⟩
    | anyDirectories =>
      cases rest with
      | nil => exact splits_final text
      | cons u rest =>
        have hne : u :: rest ≠ [] := by simp
        exact (splits_anyDirectories hne).2 (.inl (ih hne (hsplit (.inr hne)).2))

/-- A wildcard that has taken some of the text may stop at `s`: behind a character at a boundary,
or at the end. -/
def After (boundary : Char → Bool) (text s : List Char) : Prop :=
  s = [] ∨ ∃ before c, text = before ++ c :: s ∧ boundary c = true

variable {boundary : Char → Bool} {search : List Char → Outcome}

theorem after_cons {c : Char} :
    After boundary (c :: text) s ↔ boundary c = true ∧ s = text ∨ After boundary text s := by
  constructor
  · rintro (rfl | ⟨before, d, heq, hd⟩)
    · exact .inr (.inl rfl)
    · cases before with
      | nil =>
        obtain ⟨rfl, rfl⟩ := List.cons.inj heq
        exact .inl ⟨hd, rfl⟩
      | cons b before => exact .inr (.inr ⟨before, d, (List.cons.inj heq).2, hd⟩)
  · rintro (⟨hc, rfl⟩ | rfl | ⟨before, d, rfl, hd⟩)
    · exact .inr ⟨[], c, rfl, hc⟩
    · exact .inl rfl
    · exact .inr ⟨c :: before, d, rfl, hd⟩

theorem After.trans {s' : List Char} (h : After boundary text s) (h' : After boundary s s') :
    After boundary text s' := by
  rcases h with rfl | ⟨before, c, rfl, hc⟩
  · rcases h' with rfl | ⟨before', c', heq, -⟩
    · exact .inl rfl
    · simp at heq
  · rcases h' with rfl | ⟨before', c', rfl, hc'⟩
    · exact .inl rfl
    · exact .inr ⟨before ++ c :: before', c', by simp, hc'⟩

/-- A place that is given up because the text has run out has no match behind it. -/
def GivesUp (boundary : Char → Bool) (search : List Char → Outcome) : Prop :=
  ∀ text s, search text = .exhausted → After boundary text s → search s ≠ .matched

theorem seek_eq_matched (hsearch : GivesUp boundary search) :
    seek search boundary text = .matched ↔ ∃ s, After boundary text s ∧ search s = .matched := by
  induction text with
  | nil =>
    have hafter : ∀ s, After boundary [] s ↔ s = [] := by simp [After]
    simp [seek, hafter]
  | cons c text ih =>
    unfold seek
    by_cases hc : boundary c = true
    · rw [if_pos hc]
      cases hhere : search text with
      | matched => simpa using ⟨text, after_cons.2 (.inl ⟨hc, rfl⟩), hhere⟩
      | mismatch =>
        simp only [ih, after_cons, hc, true_and]
        constructor
        · rintro ⟨s, hs, hmatched⟩
          exact ⟨s, .inr hs, hmatched⟩
        · rintro ⟨s, rfl | hs, hmatched⟩
          · cases hhere.symm.trans hmatched
          · exact ⟨s, hs, hmatched⟩
      | exhausted =>
        refine iff_of_false (by simp) ?_
        rintro ⟨s, hs, hmatched⟩
        rcases after_cons.1 hs with ⟨-, rfl⟩ | hs
        · cases hhere.symm.trans hmatched
        · exact hsearch text s hhere hs hmatched
    · rw [if_neg hc, ih]
      simp only [after_cons, hc, Bool.false_eq_true, false_and, false_or]

theorem expand_eq_matched (hsearch : GivesUp boundary search) :
    expand search boundary text = .matched ↔
      search text = .matched ∨ ∃ s, After boundary text s ∧ search s = .matched := by
  unfold expand
  cases hhere : search text with
  | matched => simp
  | mismatch => simp [seek_eq_matched hsearch]
  | exhausted =>
    refine iff_of_false (by simp) ?_
    rintro (h | ⟨s, hs, hmatched⟩)
    · cases h
    · exact hsearch text s hhere hs hmatched

/-- A wildcard hands on that the search was given up. -/
theorem GivesUp.expand (hsearch : GivesUp boundary search) :
    GivesUp boundary (expand search boundary) := by
  intro text s hexhausted hs hmatched
  have hno : Glob.expand search boundary text ≠ .matched := by rw [hexhausted]; simp
  refine hno ((expand_eq_matched hsearch).2 (.inr ?_))
  rcases (expand_eq_matched hsearch).1 hmatched with hhere | ⟨s', hs', hlater⟩
  · exact ⟨s, hs, hhere⟩
  · exact ⟨s', hs.trans hs', hlater⟩

/-! ## The matcher -/

/-- The wildcard for directories stands only where a component starts: at the start of the pattern
if `start` is set, behind a slash, or behind another one. -/
def Anchored : Bool → Pattern → Prop
  | _, [] => True
  | start, .anyDirectories :: rest => start = true ∧ Anchored true rest
  | _, .char a :: rest => Anchored (a == '/') rest
  | _, _ :: rest => Anchored false rest

/-- The characters behind which such a pattern is looked for. -/
def boundaryOf : Bool → Char → Bool
  | true => fun c => c == '/'
  | false => fun _ => true

theorem After.weaken (h : After (boundaryOf start) text s) : After (fun _ => true) text s := by
  rcases h with rfl | ⟨before, c, rfl, -⟩
  · exact .inl rfl
  · exact .inr ⟨before, c, rfl, rfl⟩

/-- A token that takes one character hands on that the search was given up. -/
theorem GivesUp.one {accepts : Char → Bool} {next : Bool}
    (hsearch : GivesUp (boundaryOf next) search)
    (haccepts : ∀ c, accepts c = true → boundaryOf next c = true) :
    GivesUp (fun _ => true) (one accepts search) := by
  intro text s hexhausted hs hmatched
  cases s with
  | nil => cases hmatched
  | cons d s =>
    simp only [Glob.one] at hmatched
    split at hmatched
    · rename_i hd
      cases text with
      | nil => simp [After] at hs
      | cons c text =>
        simp only [Glob.one] at hexhausted
        split at hexhausted
        · -- The character before `s` is accepted, so `s` is a place where the rest may start.
          refine hsearch text s hexhausted (.inr ?_) hmatched
          rcases after_cons.1 hs with ⟨-, rfl⟩ | h | ⟨before, b, rfl, -⟩
          · exact ⟨[], d, rfl, haccepts d hd⟩
          · cases h
          · exact ⟨before ++ [b], d, by simp, haccepts d hd⟩
        · cases hexhausted
    · cases hmatched

theorem GivesUp.weaken (h : GivesUp (fun _ => true) search) (start : Bool) :
    GivesUp (boundaryOf start) search :=
  fun text s hexhausted hs => h text s hexhausted hs.weaken

theorem run_givesUp (h : Anchored start p) : GivesUp (boundaryOf start) (run p) := by
  induction p generalizing start with
  | nil =>
    intro text s hexhausted
    unfold run at hexhausted
    split at hexhausted <;> cases hexhausted
  | cons t rest ih =>
    cases t with
    | char a =>
      refine (GivesUp.one (ih h) fun c hc => ?_).weaken start
      cases beq_iff_eq.1 hc
      cases hslash : a == '/' with
      | true => exact hslash
      | false => rfl
    | anyChar => exact (GivesUp.one (ih h) fun _ _ => rfl).weaken start
    | within specifiers => exact (GivesUp.one (ih h) fun _ _ => rfl).weaken start
    | except specifiers => exact (GivesUp.one (ih h) fun _ _ => rfl).weaken start
    | anySequence => exact (ih h).expand.weaken start
    | anyDirectories =>
      obtain ⟨rfl, hrest⟩ := h
      exact (ih hrest).expand

theorem listed_iff {specifiers : List Specifier} {c : Char} :
    admits specifiers c = true ↔ Listed specifiers c := by
  simp only [admits, List.any_eq_true, Listed]
  constructor
  · rintro ⟨x, hx, hadmits⟩
    cases x with
    | char a =>
      cases beq_iff_eq.1 hadmits
      exact .inl hx
    | range low high => exact .inr ⟨low, high, hx, by simpa [Specifier.admits] using hadmits⟩
  · rintro (hx | ⟨low, high, hx, hlow, hhigh⟩)
    · exact ⟨.char c, hx, by simp [Specifier.admits]⟩
    · exact ⟨.range low high, hx, by simp [Specifier.admits, hlow, hhigh]⟩

theorem one_eq_matched {accepts : Char → Bool} :
    one accepts search text = .matched ↔
      ∃ c s, text = c :: s ∧ accepts c = true ∧ search s = .matched := by
  cases text with
  | nil => simp [one]
  | cons c s => by_cases h : accepts c = true <;> simp [one, h]

theorem splits_one {accepts : Char → Bool} (hne : t ≠ .anyDirectories)
    (htakes : ∀ piece, t.Takes piece ↔ ∃ c, piece = [c] ∧ accepts c = true)
    (hrest : ∀ s, search s = .matched ↔ Splits rest s) :
    one accepts search text = .matched ↔ Splits (t :: rest) text := by
  rw [one_eq_matched, splits_cons (.inl hne)]
  constructor
  · rintro ⟨c, s, rfl, hc, hs⟩
    exact ⟨[c], s, rfl, (htakes _).2 ⟨c, rfl, hc⟩, (hrest s).1 hs⟩
  · rintro ⟨piece, s, rfl, hpiece, hs⟩
    obtain ⟨c, rfl, hc⟩ := (htakes piece).1 hpiece
    exact ⟨c, s, rfl, hc, (hrest s).2 hs⟩

/-- The matcher accepts exactly the texts that split. -/
theorem run_eq_matched (h : Anchored start p) : run p text = .matched ↔ Splits p text := by
  induction p generalizing start text with
  | nil => cases text <;> simp [run, splits_nil]
  | cons t rest ih =>
    cases t with
    | char a => exact splits_one (by simp) (by simp [Token.Takes]) fun s => ih h
    | anyChar => exact splits_one (by simp) (by simp [Token.Takes]) fun s => ih h
    | within specifiers =>
      exact splits_one (by simp) (by simp [Token.Takes, listed_iff]) fun s => ih h
    | except specifiers =>
      exact splits_one (by simp) (by simp [Token.Takes, ← listed_iff]) fun s => ih h
    | anySequence =>
      have hrest : Anchored false rest := h
      have hsearch : GivesUp (fun _ => true) (run rest) := run_givesUp hrest
      rw [run, expand_eq_matched hsearch, splits_anySequence]
      simp only [ih h]
      constructor
      · rintro (hhere | ⟨s, rfl | ⟨before, c, rfl, -⟩, hs⟩)
        · exact ⟨[], text, rfl, hhere⟩
        · exact ⟨text, [], by simp, hs⟩
        · exact ⟨before ++ [c], s, by simp, hs⟩
      · rintro ⟨before, s, rfl, hs⟩
        rcases List.eq_nil_or_concat' before with rfl | ⟨before, c, rfl⟩
        · exact .inl hs
        · exact .inr ⟨s, .inr ⟨before, c, by simp, rfl⟩, hs⟩
    | anyDirectories =>
      obtain ⟨rfl, hrest⟩ := h
      have hsearch : GivesUp (fun c => c == '/') (run rest) := run_givesUp hrest
      rw [run, expand_eq_matched hsearch]
      simp only [ih hrest]
      cases rest with
      | nil =>
        refine iff_of_true (.inr ⟨[], .inl rfl, splits_nil.2 rfl⟩) (splits_final text)
      | cons u rest =>
        have hne : u :: rest ≠ [] := by simp
        rw [splits_anyDirectories hne]
        constructor
        · rintro (hhere | ⟨s, rfl | ⟨before, c, rfl, hc⟩, hs⟩)
          · exact .inl hhere
          · exact .inl (splits_of_empty hne hs text)
          · cases beq_iff_eq.1 hc
            exact .inr ⟨before, s, rfl, hs⟩
        · rintro (hhere | ⟨before, s, rfl, hs⟩)
          · exact .inl hhere
          · exact .inr ⟨s, .inr ⟨before, '/', rfl, rfl⟩, hs⟩

end Glob
end RefManifest
