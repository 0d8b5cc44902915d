import Mathlib.Data.List.TakeWhile
import RefManifest.Text.Blank

/-!
# RefManifest.Proofs.Text.Blank

Blanks at the ends of a text and between its words.

Trimming takes a run of blanks away and stops in front of a character that is none
(`exists_blanks`, `trimStart_append`). Blanks that are put around a text make no difference to what
is left of it (`trim_append`), and every text is what is left of it with blanks around
(`exists_trim`). The first word of a text is what stands between such a run and the next blank
(`firstWord?_eq_some`). Of two leads that differ somewhere, a text begins with one at most
(`stripLead?_of_apart`).
-/

namespace RefManifest
namespace Text

variable {s w w' word : List Char} {c : Char}

/-- A run of blanks, which may be empty. -/
def Blanks (w : List Char) : Prop := ∀ c ∈ w, isBlank c = true

theorem exists_blanks (s : List Char) : ∃ w, Blanks w ∧ s = w ++ trimStart s :=
  ⟨s.takeWhile isBlank, fun _ => List.mem_takeWhile_imp, List.takeWhile_append_dropWhile.symm⟩

theorem trimStart_append (h : Blanks w) (s : List Char) : trimStart (w ++ s) = trimStart s :=
  List.dropWhile_append_of_pos h

theorem trimStart_cons (h : isBlank c = false) (s : List Char) : trimStart (c :: s) = c :: s := by
  rw [trimStart, List.dropWhile_cons, h]
  rfl

/-- No blank is left in front. -/
theorem not_blank_of_trimStart (h : trimStart s = c :: w) : isBlank c = false := by
  have hhead := List.head?_dropWhile_not isBlank s
  rw [← trimStart, h] at hhead
  exact hhead

theorem trimStart_of_blanks (h : Blanks w) : trimStart w = [] := by
  have hnil := trimStart_append h []
  rwa [List.append_nil] at hnil

theorem trimStart_append_right (h : trimStart s ≠ []) (w : List Char) :
    trimStart (s ++ w) = trimStart s ++ w := by
  obtain ⟨before, hbefore, hs⟩ := exists_blanks s
  obtain ⟨c, rest, hrest⟩ := List.exists_cons_of_ne_nil h
  rw [hrest] at hs ⊢
  rw [hs, List.append_assoc, trimStart_append hbefore, List.cons_append,
    trimStart_cons (not_blank_of_trimStart hrest)]

theorem trimEnd_append (h : Blanks w) (s : List Char) : trimEnd (s ++ w) = trimEnd s := by
  have hback : Blanks w.reverse := fun c hc => h c (List.mem_reverse.1 hc)
  rw [trimEnd, List.reverse_append, ← trimStart, trimStart_append hback]
  rfl

theorem trim_append_left (h : Blanks w) (s : List Char) : trim (w ++ s) = trim s := by
  rw [trim, trimStart_append h, trim]

theorem trim_append_right (h : Blanks w) (s : List Char) : trim (s ++ w) = trim s := by
  by_cases hs : trimStart s = []
  · obtain ⟨before, hbefore, hall⟩ := exists_blanks s
    rw [hs, List.append_nil] at hall
    rw [hall, trim_append_left hbefore, trim, trimStart_of_blanks h, trim,
      trimStart_of_blanks hbefore]
  · rw [trim, trimStart_append_right hs, trimEnd_append h, trim]

theorem trim_append (h : Blanks w) (h' : Blanks w') (s : List Char) :
    trim (w ++ s ++ w') = trim s := by
  rw [trim_append_right h', trim_append_left h]

theorem exists_trim (s : List Char) : ∃ w w', Blanks w ∧ Blanks w' ∧ s = w ++ trim s ++ w' := by
  obtain ⟨w, hw, hs⟩ := exists_blanks s
  obtain ⟨w', hw', hback⟩ := exists_blanks (trimStart s).reverse
  refine ⟨w, w'.reverse, hw, fun c hc => hw' c (List.mem_reverse.1 hc), ?_⟩
  have hrest : trimStart s = trim s ++ w'.reverse := by
    rw [← List.reverse_reverse (trimStart s), hback, List.reverse_append]
    rfl
  rw [List.append_assoc, ← hrest, ← hs]

theorem trim_eq_self (hhead : ∀ c ∈ s.head?, isBlank c = false)
    (hlast : ∀ c ∈ s.getLast?, isBlank c = false) : trim s = s := by
  have hstart : ∀ t : List Char, (∀ c ∈ t.head?, isBlank c = false) → trimStart t = t := by
    intro t ht
    cases t with
    | nil => rfl
    | cons c t => exact trimStart_cons (ht c rfl) t
  have hback : trimStart s.reverse = s.reverse := hstart _ (by rwa [List.head?_reverse])
  rw [trim, hstart s hhead, trimEnd, ← trimStart, hback, List.reverse_reverse]

theorem trim_trim (s : List Char) : trim (trim s) = trim s := by
  obtain ⟨w, w', hw, hw', hs⟩ := exists_trim s
  have hagain := trim_append hw hw' (trim s)
  rw [← hs] at hagain
  exact hagain.symm

/-! ## Words and leads -/

/-- The text has that first word: nothing but blanks is before it, and it ends where the text does
or at a blank. -/
def IsFirstWord (word s : List Char) : Prop :=
  word ≠ [] ∧ (∀ c ∈ word, isBlank c = false) ∧
    ∃ before after, Blanks before ∧ s = before ++ word ++ after ∧
      ∀ c ∈ after.head?, isBlank c = true

theorem firstWord?_eq_some : firstWord? s = some word ↔ IsFirstWord word s := by
  constructor
  · intro h
    unfold firstWord? at h
    obtain ⟨before, hbefore, hs⟩ := exists_blanks s
    cases htrim : trimStart s with
    | nil =>
      rw [htrim] at h
      cases h
    | cons c rest =>
      rw [htrim] at h hs
      have hword := Option.some.inj h
      refine ⟨?_, fun d hd => ?_, before, (c :: rest).dropWhile fun x => !isBlank x, hbefore, ?_,
        fun d hd => ?_⟩
      · rw [← hword, List.takeWhile_cons, not_blank_of_trimStart htrim]
        simp
      · rw [← hword] at hd
        simpa using List.mem_takeWhile_imp hd
      · rw [← hword, List.append_assoc, List.takeWhile_append_dropWhile]
        exact hs
      · have hhead := List.head?_dropWhile_not (fun x => !isBlank x) (c :: rest)
        rw [Option.mem_def.1 hd] at hhead
        simpa using hhead
  · rintro ⟨hne, hword, before, after, hbefore, rfl, hafter⟩
    obtain ⟨c, rest, rfl⟩ := List.exists_cons_of_ne_nil hne
    have hstop : after.takeWhile (fun x => !isBlank x) = [] := by
      cases after with
      | nil => rfl
      | cons d after => simp [hafter d rfl]
    rw [firstWord?, List.append_assoc, trimStart_append hbefore, List.cons_append,
      trimStart_cons (hword c (List.mem_cons_self ..))]
    simp only
    rw [← List.cons_append, List.takeWhile_append_of_pos (by simpa using hword), hstop,
      List.append_nil]

/-- A text does not begin with two leads neither of which begins the other. -/
theorem stripLead?_of_apart {p q rest : List Char} (h : stripLead? q s = some rest)
    (hpq : ¬ p <+: q) (hqp : ¬ q <+: p) : stripLead? p s = none := by
  cases hother : stripLead? p s with
  | none => rfl
  | some rest' =>
    rw [stripLead?_eq_some] at h hother
    have hq : q <+: s := ⟨rest, h.symm⟩
    have hp : p <+: s := ⟨rest', hother.symm⟩
    exact absurd (List.prefix_or_prefix_of_prefix hp hq) (by simp [hpq, hqp])

end Text
end RefManifest
