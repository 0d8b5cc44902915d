import Mathlib.Logic.Relation
import RefManifest.Proofs.Text.Blank
import RefManifest.Text.Line

/-!
# RefManifest.Proofs.Text.Line

Lines, and what of a text is its layout.

Reading lines takes their ends off: a line feed, and one carriage return directly before it. Both
are blanks. So whoever looks at a line without the blanks around it looks at a piece of the text
between two line feeds, and whoever finds nothing in a line without text does not miss the line that
is left out at the end (`filterMap_lines`).

The layout of a text is changed at the ends of its lines, one blank at a time (`Relayout`). The
texts that such changes and their inverses lead to are those whose lines are the same without the
blanks around them (`respelled_iff`).
-/

namespace RefManifest
namespace Text

variable {s t l rest front back w : List Char} {c : Char}

/-- Induction on a list along the pieces between separators. -/
@[elab_as_elim]
theorem pieceInduction {α : Type} (sep : α) {motive : List α → Prop}
    (last : ∀ l, sep ∉ l → motive l)
    (more : ∀ l rest, sep ∉ l → motive rest → motive (l ++ sep :: rest)) (s : List α) :
    motive s := by
  generalize hn : s.length = n
  induction n using Nat.strongRecOn generalizing s with
  | ind n ih =>
    by_cases h : sep ∈ s
    · obtain ⟨l, rest, rfl, hl⟩ := List.eq_append_cons_of_mem h
      have hlt : rest.length < n := by
        rw [← hn, List.length_append, List.length_cons]
        omega
      exact more l rest hl (ih _ hlt rest rfl)
    · exact last s h

/-- The lines of a text without the blanks around them, the text behind the last line feed
included even if it is empty. -/
def bareLines (s : List Char) : List (List Char) := (s.splitOn '\n').map trim

theorem bareLines_of_not_mem (h : '\n' ∉ l) : bareLines l = [trim l] := by
  rw [bareLines, List.splitOn_eq_singleton h, List.map_singleton]

theorem bareLines_append (s t : List Char) :
    bareLines (s ++ '\n' :: t) = bareLines s ++ bareLines t := by
  rw [bareLines, List.splitOn_append_cons_self, List.map_append]
  rfl

theorem bareLines_append_of_not_mem (h : '\n' ∉ l) (rest : List Char) :
    bareLines (l ++ '\n' :: rest) = trim l :: bareLines rest := by
  rw [bareLines_append, bareLines_of_not_mem h, List.singleton_append]

theorem bareLines_ne_nil (s : List Char) : bareLines s ≠ [] := by
  rw [bareLines, Ne, List.map_eq_nil_iff]
  exact List.splitOn_ne_nil _ s

/-- A line without the carriage return that belongs to its end. -/
def dropReturn (l : List Char) : List Char := if l.getLast? = some '\r' then l.dropLast else l

theorem dropReturn_cons (h : l ≠ [] ∨ c ≠ '\r') : dropReturn (c :: l) = c :: dropReturn l := by
  cases l with
  | nil =>
    have hc : c ≠ '\r' := h.resolve_left fun hnil => hnil rfl
    simp [dropReturn, hc]
  | cons d l =>
    simp only [dropReturn, List.getLast?_cons_cons, List.dropLast_cons_cons]
    split <;> rfl

theorem trim_dropReturn (l : List Char) : trim (dropReturn l) = trim l := by
  unfold dropReturn
  split
  · rename_i h
    obtain ⟨front, rfl⟩ := List.getLast?_eq_some_iff.1 h
    have hblank : Blanks ['\r'] := by simp [Blanks, isBlank]
    rw [List.dropLast_concat, trim_append_right hblank]
  · rfl

theorem lines_cons (hc : c ≠ '\n') (h : c ≠ '\r' ∨ rest.head? ≠ some '\n') :
    lines (c :: rest) = consLine c (lines rest) := by
  rw [lines, if_neg hc]
  rintro rest' rfl rfl
  simp at h

/-- The line in front of a line feed. -/
theorem lines_append (h : '\n' ∉ l) (rest : List Char) :
    lines (l ++ '\n' :: rest) = dropReturn l :: lines rest := by
  induction l with
  | nil => rfl
  | cons c l ih =>
    simp only [List.mem_cons, not_or] at h
    obtain ⟨hc, hl⟩ := h
    by_cases hend : c = '\r' ∧ l = []
    · obtain ⟨rfl, rfl⟩ := hend
      rfl
    · have hkeep : l ≠ [] ∨ c ≠ '\r' := (Decidable.not_and_iff_not_or_not.1 hend).symm
      have hnext : c ≠ '\r' ∨ (l ++ '\n' :: rest).head? ≠ some '\n' := by
        refine hkeep.symm.imp id fun hne => ?_
        obtain ⟨d, l, rfl⟩ := List.exists_cons_of_ne_nil hne
        rintro hd
        exact hl (by rw [← Option.some.inj hd]; exact List.mem_cons_self ..)
      rw [List.cons_append, lines_cons (Ne.symm hc) hnext, ih hl, dropReturn_cons hkeep]
      rfl

theorem lines_of_not_mem (h : '\n' ∉ l) : lines l = if l = [] then [] else [l] := by
  induction l with
  | nil => rfl
  | cons c l ih =>
    simp only [List.mem_cons, not_or] at h
    obtain ⟨hc, hl⟩ := h
    have hnext : l.head? ≠ some '\n' := fun hhead => hl (List.mem_of_mem_head? hhead)
    rw [lines_cons (Ne.symm hc) (.inr hnext), ih hl, if_neg (List.cons_ne_nil c l)]
    cases l <;> rfl

/-- What is found in the lines of a text, by someone who does not look at the blanks around a line
and finds nothing in an empty one. -/
theorem filterMap_lines {β : Type} {f : List Char → Option β} (htrim : ∀ l, f (trim l) = f l)
    (hnil : f [] = none) (s : List Char) : (lines s).filterMap f = (bareLines s).filterMap f := by
  induction s using pieceInduction '\n' with
  | last l hl =>
    rw [lines_of_not_mem hl, bareLines_of_not_mem hl, List.filterMap_cons, htrim]
    split
    · rename_i hempty
      rw [hempty, hnil]
    · rw [List.filterMap_cons]
  | more l rest hl ih =>
    have hline : f (dropReturn l) = f (trim l) := by rw [← htrim, trim_dropReturn]
    rw [lines_append hl, bareLines_append_of_not_mem hl, List.filterMap_cons, List.filterMap_cons,
      hline, ih]

/-! ## Layout -/

/-- A line starts behind this text. -/
def AtLineStart (front : List Char) : Prop := front = [] ∨ ∃ x, front = x ++ ['\n']

/-- A line ends in front of this text. -/
def AtLineEnd (back : List Char) : Prop :=
  back = [] ∨ (∃ x, back = '\n' :: x) ∨ ∃ x, back = '\r' :: '\n' :: x

/-- One change of layout: a line feed gets a carriage return, or a blank other than the line feed
is put at the start or the end of a line. -/
inductive Relayout : List Char → List Char → Prop where
  | ending (front back : List Char) :
      Relayout (front ++ '\n' :: back) (front ++ '\r' :: '\n' :: back)
  | blank {front back : List Char} {c : Char} (hplace : AtLineStart front ∨ AtLineEnd back)
      (hblank : isBlank c = true) (hfeed : c ≠ '\n') : Relayout (front ++ back) (front ++ c :: back)

/-- Changes of layout, and such changes taken back, lead from one text to the other. -/
def Respelled : List Char → List Char → Prop := Relation.EqvGen Relayout

theorem bareLines_cons_blank (hblank : isBlank c = true) (hfeed : c ≠ '\n') (s : List Char) :
    bareLines (c :: s) = bareLines s := by
  have hc : Blanks [c] := by simpa [Blanks] using hblank
  have htrim : ∀ l, trim (c :: l) = trim l := trim_append_left hc
  have hnot : ∀ {l}, '\n' ∉ l → '\n' ∉ c :: l := by simp [hfeed.symm]
  induction s using pieceInduction '\n' with
  | last l hl => rw [bareLines_of_not_mem (hnot hl), bareLines_of_not_mem hl, htrim]
  | more l rest hl _ =>
    rw [← List.cons_append, bareLines_append_of_not_mem (hnot hl), bareLines_append_of_not_mem hl,
      htrim]

theorem bareLines_concat_blank (hblank : isBlank c = true) (hfeed : c ≠ '\n') (s : List Char) :
    bareLines (s ++ [c]) = bareLines s := by
  have hc : Blanks [c] := by simpa [Blanks] using hblank
  induction s using pieceInduction '\n' with
  | last l hl =>
    have hnot : '\n' ∉ l ++ [c] := by simp [hl, hfeed.symm]
    rw [bareLines_of_not_mem hnot, bareLines_of_not_mem hl, trim_append_right hc]
  | more l rest hl ih =>
    rw [List.append_assoc, List.cons_append, bareLines_append_of_not_mem hl, ih,
      bareLines_append_of_not_mem hl]

theorem bareLines_return (front back : List Char) :
    bareLines (front ++ '\r' :: '\n' :: back) = bareLines (front ++ '\n' :: back) := by
  have hends : front ++ '\r' :: '\n' :: back = front ++ ['\r'] ++ '\n' :: back := by
    rw [List.append_assoc, List.singleton_append]
  rw [hends, bareLines_append, bareLines_append, bareLines_concat_blank (by decide) (by decide)]

/-- A change of layout leaves the lines as they are. -/
theorem Relayout.bareLines_eq (h : Relayout s t) : bareLines s = bareLines t := by
  cases h with
  | ending front back => exact (bareLines_return front back).symm
  | @blank front back c hplace hblank hfeed =>
    have hbehind : front ++ c :: back = front ++ [c] ++ back := by
      rw [List.append_assoc, List.singleton_append]
    rcases hplace with (rfl | ⟨x, rfl⟩) | rfl | ⟨x, rfl⟩ | ⟨x, rfl⟩
    · exact (bareLines_cons_blank hblank hfeed back).symm
    · simp only [List.append_assoc, List.cons_append, List.nil_append]
      rw [bareLines_append, bareLines_append, bareLines_cons_blank hblank hfeed]
    · rw [List.append_nil, bareLines_concat_blank hblank hfeed]
    · rw [hbehind, bareLines_append, bareLines_append, bareLines_concat_blank hblank hfeed]
    · rw [hbehind, bareLines_return, bareLines_return, bareLines_append, bareLines_append,
        bareLines_concat_blank hblank hfeed]

namespace Respelled

theorem refl (s : List Char) : Respelled s s := Relation.EqvGen.refl s

theorem symm (h : Respelled s t) : Respelled t s := Relation.EqvGen.symm _ _ h

theorem trans {u : List Char} (h : Respelled s t) (h' : Respelled t u) : Respelled s u :=
  Relation.EqvGen.trans _ _ _ h h'

theorem bareLines_eq (h : Respelled s t) : bareLines s = bareLines t := by
  induction h with
  | rel _ _ h => exact h.bareLines_eq
  | refl _ => rfl
  | symm _ _ _ ih => exact ih.symm
  | trans _ _ _ _ _ ih ih' => exact ih.trans ih'

theorem lead (hfront : AtLineStart front) (hw : Blanks w) (hfeed : '\n' ∉ w) (back : List Char) :
    Respelled (front ++ back) (front ++ (w ++ back)) := by
  induction w with
  | nil => exact refl _
  | cons c w ih =>
    simp only [List.mem_cons, not_or] at hfeed
    have hrest : Respelled (front ++ back) (front ++ (w ++ back)) :=
      ih (fun d hd => hw d (List.mem_cons_of_mem _ hd)) hfeed.2
    have hstep : Relayout (front ++ (w ++ back)) (front ++ c :: (w ++ back)) :=
      .blank (.inl hfront) (hw c (List.mem_cons_self ..)) (Ne.symm hfeed.1)
    exact hrest.trans (.rel _ _ hstep)

theorem trail (hback : AtLineEnd back) (hw : Blanks w) (hfeed : '\n' ∉ w) (front : List Char) :
    Respelled (front ++ back) (front ++ (w ++ back)) := by
  induction w generalizing front with
  | nil => exact refl _
  | cons c w ih =>
    simp only [List.mem_cons, not_or] at hfeed
    have hstep : Relayout (front ++ back) (front ++ c :: back) :=
      .blank (.inr hback) (hw c (List.mem_cons_self ..)) (Ne.symm hfeed.1)
    have hrest := ih (fun d hd => hw d (List.mem_cons_of_mem _ hd)) hfeed.2 (front ++ [c])
    simp only [List.append_assoc, List.singleton_append] at hrest
    exact trans (.rel _ _ hstep) hrest

theorem trimmed (hfront : AtLineStart front) (hback : AtLineEnd back) (hl : '\n' ∉ l) :
    Respelled (front ++ (trim l ++ back)) (front ++ (l ++ back)) := by
  obtain ⟨w, w', hw, hw', hs⟩ := exists_trim l
  have hline : l ++ back = w ++ (trim l ++ (w' ++ back)) :=
    calc l ++ back = w ++ trim l ++ w' ++ back := congrArg (· ++ back) hs
      _ = w ++ (trim l ++ (w' ++ back)) := by simp only [List.append_assoc]
  rw [hs] at hl
  simp only [List.mem_append, not_or] at hl
  have hbehind := trail hback hw' hl.2 (front ++ trim l)
  simp only [List.append_assoc] at hbehind
  rw [hline]
  exact hbehind.trans (lead hfront hw hl.1.1 (trim l ++ (w' ++ back)))

/-- A text, from the line that starts here, is spelled like its lines without blanks. -/
theorem bare (s : List Char) (hfront : AtLineStart front) :
    Respelled (front ++ ['\n'].intercalate (bareLines s)) (front ++ s) := by
  induction s using pieceInduction '\n' generalizing front with
  | last l hl =>
    have hline := trimmed hfront (.inl rfl) hl
    rw [List.append_nil, List.append_nil] at hline
    rwa [bareLines_of_not_mem hl, List.intercalate_singleton]
  | more l rest hl ih =>
    have hnext : AtLineStart (front ++ trim l ++ ['\n']) := .inr ⟨_, rfl⟩
    have hrest := ih hnext
    simp only [List.append_assoc, List.singleton_append] at hrest
    rw [bareLines_append_of_not_mem hl, List.intercalate_cons_of_ne_nil (bareLines_ne_nil rest),
      List.append_assoc, List.singleton_append]
    exact hrest.trans (trimmed hfront (.inr (.inl ⟨rest, rfl⟩)) hl)

end Respelled

/-- Two texts differ in their layout alone exactly if they have the same lines without the blanks
around them. -/
theorem respelled_iff : Respelled s t ↔ bareLines s = bareLines t := by
  refine ⟨Respelled.bareLines_eq, fun h => ?_⟩
  have hs := Respelled.bare s (.inl rfl)
  have ht := Respelled.bare t (.inl rfl)
  rw [List.nil_append, List.nil_append] at hs ht
  rw [h] at hs
  exact hs.symm.trans ht

end Text
end RefManifest
