import RefManifest.Proofs.Glob.Match

/-!
# RefManifest.Proofs.Glob.Pattern

How patterns are written, and that reading a pattern finds its tokens.

`Written` has one rule for each kind of token. A star is followed by no other one; two of them have
to fill a component, so they stand behind a slash or at the start, and a slash or the end follows
them; a class goes up to the next `]` behind its first member. Reading a text succeeds exactly if it
is written that way (`parse_eq_ok`), and then in one way only (`Written.unique`).

The reader drops a `**` behind another one. The language does not change with that
(`splits_twice`), so `matchesText_iff` speaks of the tokens as they are written.
-/

namespace RefManifest
namespace Glob

variable {p tokens rest : Pattern} {before : Option Char} {text more after s : List Char}
variable {fuel position : Nat} {acc : List Token}

/-- A component may start behind that character. -/
def StartsComponent (before : Option Char) : Prop := before = none ∨ before = some '/'

instance (before : Option Char) : Decidable (StartsComponent before) :=
  inferInstanceAs (Decidable (_ ∨ _))

/-- The text behind `before` is written with those tokens. -/
inductive Written : Option Char → List Char → Pattern → Prop where
  | nil {before : Option Char} : Written before [] []
  | char {before : Option Char} {a : Char} {text : List Char} {tokens : Pattern}
      (hplain : a ≠ '?' ∧ a ≠ '*' ∧ a ≠ '[') (hrest : Written (some a) text tokens) :
      Written before (a :: text) (.char a :: tokens)
  | anyChar {before : Option Char} {text : List Char} {tokens : Pattern}
      (hrest : Written (some '?') text tokens) :
      Written before ('?' :: text) (.anyChar :: tokens)
  | anySequence {before : Option Char} {text : List Char} {tokens : Pattern}
      (hsingle : text.head? ≠ some '*') (hrest : Written (some '*') text tokens) :
      Written before ('*' :: text) (.anySequence :: tokens)
  | anyDirectories {before : Option Char} {text : List Char} {tokens : Pattern}
      (hbefore : StartsComponent before) (hrest : Written (some '/') text tokens) :
      Written before ('*' :: '*' :: '/' :: text) (.anyDirectories :: tokens)
  | final {before : Option Char} (hbefore : StartsComponent before) :
      Written before ['*', '*'] [.anyDirectories]
  | within {before : Option Char} {first : Char} {more text : List Char} {tokens : Pattern}
      (hfirst : first ≠ '!') (hmore : ']' ∉ more) (hrest : Written (some ']') text tokens) :
      Written before ('[' :: first :: (more ++ ']' :: text))
        (.within (specifiers (first :: more)) :: tokens)
  | except {before : Option Char} {first : Char} {more text : List Char} {tokens : Pattern}
      (hmore : ']' ∉ more) (hrest : Written (some ']') text tokens) :
      Written before ('[' :: '!' :: first :: (more ++ ']' :: text))
        (.except (specifiers (first :: more)) :: tokens)

theorem splitClass?_eq_some :
    splitClass? text = some (more, after) ↔ text = more ++ ']' :: after ∧ ']' ∉ more := by
  induction text generalizing more with
  | nil => simp [splitClass?]
  | cons c text ih =>
    unfold splitClass?
    by_cases hc : c = ']'
    · subst hc
      cases more with
      | nil => simp [eq_comm]
      | cons d more =>
        refine iff_of_false (by simp) ?_
        rintro ⟨heq, hmem⟩
        exact hmem ((List.cons.inj heq).1 ▸ List.mem_cons_self ..)
    · rw [if_neg hc, Option.map_eq_some_iff]
      constructor
      · rintro ⟨⟨more', after'⟩, hsplit, heq⟩
        obtain ⟨rfl, rfl⟩ := Prod.mk.inj heq
        obtain ⟨rfl, hmem⟩ := ih.1 hsplit
        exact ⟨rfl, by simp [hmem, Ne.symm hc]⟩
      · rintro ⟨heq, hmem⟩
        cases more with
        | nil => exact absurd (List.cons.inj heq).1 hc
        | cons d more =>
          obtain ⟨rfl, rfl⟩ := List.cons.inj heq
          exact ⟨(more, after), ih.2 ⟨rfl, fun h => hmem (List.mem_cons_of_mem _ h)⟩, rfl⟩

theorem splitClass?_append (hmore : ']' ∉ more) (after : List Char) :
    splitClass? (more ++ ']' :: after) = some (more, after) :=
  splitClass?_eq_some.2 ⟨rfl, hmore⟩

/-- A class closes at one place. -/
theorem class_unique {more' after' : List Char}
    (heq : more ++ ']' :: after = more' ++ ']' :: after') (h : ']' ∉ more) (h' : ']' ∉ more') :
    more = more' ∧ after = after' := by
  have hsplit := splitClass?_append h after
  rw [heq, splitClass?_append h'] at hsplit
  simpa [eq_comm] using hsplit

theorem classToken?_except (first : Char) (text : List Char) :
    classToken? ('!' :: first :: text) =
      (splitClass? text).map fun r =>
        (.except (specifiers (first :: r.1)), r.1.length + 3, r.2) := by
  rw [classToken?]
  cases splitClass? text <;> rfl

theorem classToken?_within {first : Char} (hfirst : first ≠ '!') (text : List Char) :
    classToken? (first :: text) =
      (splitClass? text).map fun r =>
        (.within (specifiers (first :: r.1)), r.1.length + 2, r.2) := by
  rw [classToken?.eq_def]
  split
  · rename_i heq
    exact absurd (List.cons.inj heq).1 hfirst
  · rename_i heq
    exact absurd (List.cons.inj heq).1 hfirst
  · rename_i heq
    obtain ⟨rfl, rfl⟩ := List.cons.inj heq
    cases splitClass? text <;> rfl
  · rename_i heq
    cases heq

theorem classToken?_eq_some {t : Token} {size : Nat}
    (h : classToken? text = some (t, size, after)) :
    ∃ first more, ']' ∉ more ∧
      (first ≠ '!' ∧ text = first :: (more ++ ']' :: after) ∧
          t = .within (specifiers (first :: more)) ∨
        text = '!' :: first :: (more ++ ']' :: after) ∧
          t = .except (specifiers (first :: more))) := by
  cases text with
  | nil => cases h
  | cons c text =>
    by_cases hc : c = '!'
    · subst hc
      cases text with
      | nil => cases h
      | cons first text =>
        rw [classToken?_except, Option.map_eq_some_iff] at h
        obtain ⟨⟨more, rest⟩, hsplit, heq⟩ := h
        cases heq
        obtain ⟨rfl, hmem⟩ := splitClass?_eq_some.1 hsplit
        exact ⟨first, more, hmem, .inr ⟨rfl, rfl⟩⟩
    · rw [classToken?_within hc, Option.map_eq_some_iff] at h
      obtain ⟨⟨more, rest⟩, hsplit, heq⟩ := h
      cases heq
      obtain ⟨rfl, hmem⟩ := splitClass?_eq_some.1 hsplit
      exact ⟨c, more, hmem, .inl ⟨hc, rfl, rfl⟩⟩

/-! ## Reading -/

/-- Adds a token to those that have been read, the last one first. -/
def collect (acc : List Token) : Token → List Token
  | .anyDirectories => pushDirectories acc
  | t => t :: acc

/-- The tokens that reading keeps of those that are written, behind those of `acc`. -/
def collected (acc : List Token) (tokens : Pattern) : Pattern := (tokens.foldl collect acc).reverse

attribute [local simp] tokensFrom

theorem tokensFrom_char {a : Char} (hplain : a ≠ '?' ∧ a ≠ '*' ∧ a ≠ '[') :
    tokensFrom (fuel + 1) position before acc (a :: text) =
      tokensFrom fuel (position + 1) (some a) (.char a :: acc) text := by
  simp [hplain]

theorem tokensFrom_star (hsingle : text.head? ≠ some '*') :
    tokensFrom (fuel + 1) position before acc ('*' :: text) =
      tokensFrom fuel (position + 1) (some '*') (.anySequence :: acc) text := by
  cases text with
  | nil => rfl
  | cons d text =>
    have hd : d ≠ '*' := fun e => hsingle (congrArg some e)
    simp [hd]

theorem tokensFrom_directories (hbefore : StartsComponent before) :
    tokensFrom (fuel + 1) position before acc ('*' :: '*' :: '/' :: text) =
      tokensFrom fuel (position + 3) (some '/') (pushDirectories acc) text := by
  simp only [StartsComponent] at hbefore
  simp [hbefore]

theorem tokensFrom_final (hbefore : StartsComponent before) :
    tokensFrom (fuel + 1) position before acc ['*', '*'] = .ok (pushDirectories acc).reverse := by
  simp only [StartsComponent] at hbefore
  simp [hbefore]

/-- Two stars that are read fill a component. -/
theorem fills_of_tokensFrom
    (h : tokensFrom (fuel + 1) position before acc ('*' :: '*' :: text) = .ok p) :
    StartsComponent before ∧ (text = [] ∨ ∃ rest, text = '/' :: rest) := by
  cases text with
  | nil =>
    by_cases hbefore : StartsComponent before
    · exact ⟨hbefore, .inl rfl⟩
    · simp only [StartsComponent] at hbefore
      simp [hbefore] at h
  | cons c text =>
    by_cases hc : c = '*'
    · subst hc
      cases h
    · by_cases hbefore : StartsComponent before
      · refine ⟨hbefore, .inr ⟨text, ?_⟩⟩
        simp only [StartsComponent] at hbefore
        by_contra hslash
        simp [hbefore, hc] at h hslash
        simp [hslash] at h
      · simp only [StartsComponent] at hbefore
        simp [hbefore, hc] at h

theorem tokensFrom_class {t : Token} {size : Nat} (h : classToken? text = some (t, size, after)) :
    tokensFrom (fuel + 1) position before acc ('[' :: text) =
      tokensFrom fuel (position + size + 1) (some ']') (t :: acc) after := by
  simp [h]

theorem Written.tokensFrom_eq (h : Written before text tokens) (hfuel : text.length ≤ fuel) :
    tokensFrom fuel position before acc text = .ok (collected acc tokens) := by
  induction h generalizing fuel position acc with
  | nil => cases fuel <;> rfl
  | char hplain _ ih =>
    obtain _ | fuel := fuel
    · simp at hfuel
    · rw [tokensFrom_char hplain]
      exact ih (by simpa using hfuel)
  | anyChar _ ih =>
    obtain _ | fuel := fuel
    · simp at hfuel
    · exact ih (by simpa using hfuel)
  | anySequence hsingle _ ih =>
    obtain _ | fuel := fuel
    · simp at hfuel
    · rw [tokensFrom_star hsingle]
      exact ih (by simpa using hfuel)
  | anyDirectories hbefore _ ih =>
    obtain _ | fuel := fuel
    · simp at hfuel
    · rw [tokensFrom_directories hbefore]
      exact ih (by simp at hfuel; omega)
  | final hbefore =>
    obtain _ | fuel := fuel
    · simp at hfuel
    · exact tokensFrom_final hbefore
  | within hfirst hmore _ ih =>
    obtain _ | fuel := fuel
    · simp at hfuel
    · rw [tokensFrom_class (by rw [classToken?_within hfirst, splitClass?_append hmore]; rfl)]
      exact ih (by simp at hfuel; omega)
  | except hmore _ ih =>
    obtain _ | fuel := fuel
    · simp at hfuel
    · rw [tokensFrom_class (by rw [classToken?_except, splitClass?_append hmore]; rfl)]
      exact ih (by simp at hfuel; omega)

theorem written_of_tokensFrom (h : tokensFrom fuel position before acc text = .ok p)
    (hfuel : text.length ≤ fuel) : ∃ tokens, Written before text tokens := by
  induction fuel generalizing position before acc text with
  | zero =>
    obtain rfl := List.eq_nil_of_length_eq_zero (Nat.le_zero.1 hfuel)
    exact ⟨[], .nil⟩
  | succ fuel ih =>
    cases text with
    | nil => exact ⟨[], .nil⟩
    | cons c text =>
      have hlen : text.length ≤ fuel := by simpa using hfuel
      by_cases hplain : c ≠ '?' ∧ c ≠ '*' ∧ c ≠ '['
      · rw [tokensFrom_char hplain] at h
        obtain ⟨tokens, htokens⟩ := ih h hlen
        exact ⟨_, .char hplain htokens⟩
      · have hc : c = '?' ∨ c = '*' ∨ c = '[' := by grind
        rcases hc with rfl | rfl | rfl
        · obtain ⟨tokens, htokens⟩ := ih h hlen
          exact ⟨_, .anyChar htokens⟩
        · by_cases hsingle : text.head? = some '*'
          · obtain ⟨text, rfl⟩ := List.head?_eq_some_iff.1 hsingle
            obtain ⟨hbefore, rfl | ⟨text, rfl⟩⟩ := fills_of_tokensFrom h
            · exact ⟨_, .final hbefore⟩
            · rw [tokensFrom_directories hbefore] at h
              obtain ⟨tokens, htokens⟩ := ih h (by simp at hlen; omega)
              exact ⟨_, .anyDirectories hbefore htokens⟩
          · rw [tokensFrom_star hsingle] at h
            obtain ⟨tokens, htokens⟩ := ih h hlen
            exact ⟨_, .anySequence hsingle htokens⟩
        · cases hclass : classToken? text with
          | none => simp [hclass] at h
          | some found =>
            obtain ⟨t, size, after⟩ := found
            rw [tokensFrom_class hclass] at h
            obtain ⟨first, more, hmore, ⟨hfirst, rfl, rfl⟩ | ⟨rfl, rfl⟩⟩ :=
              classToken?_eq_some hclass
            · obtain ⟨tokens, htokens⟩ := ih h (by simp at hlen; omega)
              exact ⟨_, .within hfirst hmore htokens⟩
            · obtain ⟨tokens, htokens⟩ := ih h (by simp at hlen; omega)
              exact ⟨_, .except hmore htokens⟩

/-- Reading a pattern succeeds exactly if it is written as the rules say. -/
theorem parse_eq_ok :
    parse text = .ok p ↔ ∃ tokens, Written none text tokens ∧ p = collected [] tokens := by
  constructor
  · intro h
    obtain ⟨tokens, htokens⟩ := written_of_tokensFrom h (Nat.le_refl _)
    have hread : parse text = .ok (collected [] tokens) := htokens.tokensFrom_eq (Nat.le_refl _)
    exact ⟨tokens, htokens, Except.ok.inj (h.symm.trans hread)⟩
  · rintro ⟨tokens, htokens, rfl⟩
    exact htokens.tokensFrom_eq (Nat.le_refl _)

theorem Written.unique {tokens' : Pattern} (h : Written before text tokens)
    (h' : Written before text tokens') : tokens = tokens' := by
  induction h generalizing tokens' with
  | nil =>
    cases h'
    rfl
  | char hplain _ ih =>
    cases h' with
    | char _ hrest => rw [ih hrest]
    | anyChar => exact absurd rfl hplain.1
    | anySequence => exact absurd rfl hplain.2.1
    | anyDirectories => exact absurd rfl hplain.2.1
    | final => exact absurd rfl hplain.2.1
    | within => exact absurd rfl hplain.2.2
    | except => exact absurd rfl hplain.2.2
  | anyChar _ ih =>
    cases h' with
    | char hplain => exact absurd rfl hplain.1
    | anyChar hrest => rw [ih hrest]
  | anySequence hsingle _ ih =>
    cases h' with
    | char hplain => exact absurd rfl hplain.2.1
    | anySequence _ hrest => rw [ih hrest]
    | anyDirectories => exact absurd rfl hsingle
    | final => exact absurd rfl hsingle
  | anyDirectories _ _ ih =>
    cases h' with
    | char hplain => exact absurd rfl hplain.2.1
    | anySequence hsingle => exact absurd rfl hsingle
    | anyDirectories _ hrest => rw [ih hrest]
  | final =>
    cases h' with
    | char hplain => exact absurd rfl hplain.2.1
    | anySequence hsingle => exact absurd rfl hsingle
    | final => rfl
  | within hfirst hmore _ ih =>
    generalize htext : '[' :: _ :: (_ ++ ']' :: _) = text at h'
    cases h' with
    | within _ hmore' hrest =>
      simp only [List.cons.injEq, true_and] at htext
      obtain ⟨rfl, heq⟩ := htext
      obtain ⟨rfl, rfl⟩ := class_unique heq hmore hmore'
      rw [ih hrest]
    | except => exact absurd (List.cons.inj (List.cons.inj htext).2).1 hfirst
    | char hplain => exact absurd (List.cons.inj htext).1.symm hplain.2.2
    | _ => cases htext
  | except hmore _ ih =>
    generalize htext : '[' :: '!' :: _ :: (_ ++ ']' :: _) = text at h'
    cases h' with
    | except hmore' hrest =>
      simp only [List.cons.injEq, true_and] at htext
      obtain ⟨rfl, heq⟩ := htext
      obtain ⟨rfl, rfl⟩ := class_unique heq hmore hmore'
      rw [ih hrest]
    | within hfirst => exact absurd (List.cons.inj (List.cons.inj htext).2).1.symm hfirst
    | char hplain => exact absurd (List.cons.inj htext).1.symm hplain.2.2
    | _ => cases htext

/-! ## Wildcards in a row -/

/-- What does not see a `**` behind another one does not see what reading drops. -/
theorem collected_iff {P : Pattern → Prop}
    (hP : ∀ front rest, P (front ++ .anyDirectories :: .anyDirectories :: rest) ↔
      P (front ++ .anyDirectories :: rest)) :
    P (collected acc tokens) ↔ P (acc.reverse ++ tokens) := by
  induction tokens generalizing acc with
  | nil => simp [collected]
  | cons t tokens ih =>
    have hstep : P ((collect acc t).reverse ++ tokens) ↔ P (acc.reverse ++ t :: tokens) := by
      cases t with
      | anyDirectories =>
        simp only [collect, pushDirectories]
        split
        · rename_i u front
          simpa using (hP (front.reverse ++ [u]) tokens).symm
        · simp
      | _ => simp [collect]
    exact ih.trans hstep

/-- Two wildcards for directories in a row are one. -/
theorem splits_twice (front : Pattern) :
    Splits (front ++ .anyDirectories :: .anyDirectories :: rest) text ↔
      Splits (front ++ .anyDirectories :: rest) text := by
  induction front generalizing text with
  | nil =>
    cases rest with
    | nil =>
      refine iff_of_true ?_ (splits_final text)
      exact (splits_anyDirectories (by simp)).2 (.inl (splits_final text))
    | cons t rest =>
      simp only [List.nil_append]
      rw [splits_anyDirectories (by simp)]
      refine ⟨?_, .inl⟩
      rintro (h | ⟨before, s, rfl, h⟩)
      · exact h
      · rw [splits_anyDirectories (by simp)] at h ⊢
        rcases h with h | ⟨before', s', rfl, h⟩
        · exact .inr ⟨before, s, rfl, h⟩
        · exact .inr ⟨before ++ '/' :: before', s', by simp, h⟩
  | cons t front ih =>
    simp only [List.cons_append]
    rw [splits_cons (.inr (by simp)), splits_cons (.inr (by simp))]
    simp only [ih]

theorem anchored_twice {start : Bool} (front : Pattern) :
    Anchored start (front ++ .anyDirectories :: .anyDirectories :: rest) ↔
      Anchored start (front ++ .anyDirectories :: rest) := by
  induction front generalizing start with
  | nil => simp [Anchored]
  | cons t front ih => cases t <;> simp [Anchored, ih]

theorem Written.anchored (h : Written before text tokens) :
    Anchored (decide (StartsComponent before)) tokens := by
  induction h with
  | nil => trivial
  | char _ _ ih =>
    simp only [StartsComponent, reduceCtorEq, Option.some.injEq, false_or] at ih
    rw [Anchored, beq_eq_decide]
    exact ih
  | anyChar _ ih => exact ih
  | anySequence _ _ ih => exact ih
  | anyDirectories hbefore _ ih => exact ⟨decide_eq_true hbefore, ih⟩
  | final hbefore => exact ⟨decide_eq_true hbefore, trivial⟩
  | within _ _ _ ih => exact ih
  | except _ _ ih => exact ih

/-- A pattern matches the texts that split into pieces of the tokens that it is written with. -/
theorem matchesText_iff (hparse : parse text = .ok p) (h : Written none text tokens) :
    matchesText p s = true ↔ Splits tokens s := by
  obtain ⟨tokens', h', rfl⟩ := parse_eq_ok.1 hparse
  obtain rfl := h.unique h'
  have hanchored : Anchored true (collected [] tokens) :=
    (collected_iff fun front rest => anchored_twice front).2 h.anchored
  rw [matchesText, beq_iff_eq, run_eq_matched hanchored]
  exact collected_iff (P := fun q => Splits q s) fun front rest => splits_twice front

/-- No character of the text means anything but itself. -/
def Plain (text : List Char) : Prop := ∀ c ∈ text, c ≠ '?' ∧ c ≠ '*' ∧ c ≠ '['

instance (text : List Char) : Decidable (Plain text) :=
  inferInstanceAs (Decidable (∀ c ∈ text, _))

/-- Plain text is written with its characters. -/
theorem Plain.written (h : Plain text) (hrest : ∀ before, Written before s rest)
    (before : Option Char) : Written before (text ++ s) (text.map .char ++ rest) := by
  induction text generalizing before with
  | nil => exact hrest before
  | cons c text ih =>
    refine .char (h c (List.mem_cons_self ..)) (ih (fun d hd => h d ?_) (some c))
    exact List.mem_cons_of_mem _ hd

theorem splits_plain {front : List Char} :
    Splits (front.map .char ++ rest) text ↔ ∃ s, text = front ++ s ∧ Splits rest s := by
  induction front generalizing text with
  | nil => simp
  | cons c front ih =>
    simp only [List.map_cons, List.cons_append, splits_char, ih]
    constructor
    · rintro ⟨_, rfl, s, rfl, hs⟩
      exact ⟨s, rfl, hs⟩
    · rintro ⟨s, rfl, hs⟩
      exact ⟨_, rfl, s, rfl, hs⟩

theorem splits_plain_end {front : List Char} : Splits (front.map .char) text ↔ text = front := by
  have h : Splits (front.map .char ++ []) text ↔ ∃ s, text = front ++ s ∧ Splits [] s := splits_plain
  simpa [splits_nil] using h

end Glob
end RefManifest
