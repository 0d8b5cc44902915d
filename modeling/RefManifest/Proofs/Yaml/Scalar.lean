import RefManifest.Proofs.Yaml.Quoted
import RefManifest.Yaml.Print

/-!
# RefManifest.Proofs.Yaml.Scalar

Scalars can be read back, up to the end of a literal block.

`written` is a scalar as it stands in the first column, with the end of its line. Its first
character tells the style (`written_eq_cons`), and in each style what follows tells the text: quotes
are undone, and the hints of a literal block tell whether the end of its last line belongs to the
text. So no two texts are written alike (`written_injective`). But a text can be written like
another one with a line feed more, if its last line ends with a break that is not a line feed
(`Unterminated`); `written_concat_iff` says that this is the only way.
-/

namespace RefManifest
namespace Yaml

variable {s s' : List Char}

/-- The text ends with a break. -/
def endsBroken (s : List Char) : Bool := s.getLast?.any isBreak

theorem endLine_eq (s : List Char) : endLine s = if endsBroken s then s else s ++ ['\n'] := by
  unfold endLine endsBroken
  cases hlast : s.getLast? with
  | none =>
    rw [List.getLast?_eq_none_iff] at hlast
    subst s
    rfl
  | some c => rfl

theorem endsBroken_concat (s : List Char) (c : Char) : endsBroken (s ++ [c]) = isBreak c := by
  simp [endsBroken]

theorem endsBroken_append (s : List Char) {t : List Char} (h : t ≠ []) :
    endsBroken (s ++ t) = endsBroken t := by
  rw [endsBroken, endsBroken, List.getLast?_append, List.getLast?_eq_some_getLast h, Option.some_or]

theorem endLine_append (s : List Char) {t : List Char} (h : t ≠ []) :
    endLine (s ++ t) = s ++ endLine t := by
  rw [endLine_eq, endLine_eq, endsBroken_append s h]
  split
  · rfl
  · exact List.append_assoc ..

theorem endsBroken_endLine (s : List Char) : endsBroken (endLine s) = true := by
  rw [endLine_eq]
  split
  · assumption
  · exact endsBroken_concat s '\n'

def hints (s : List Char) : List Char := indentHint s ++ chompHint s

theorem chompHint_cases (s : List Char) :
    (endsBroken s = false ∧ chompHint s = ['-']) ∨
      (endsBroken s = true ∧ (chompHint s = ['+'] ∨ chompHint s = [])) := by
  rw [endsBroken, ← List.head?_reverse, chompHint]
  cases s.reverse with
  | nil => exact .inl ⟨rfl, rfl⟩
  | cons c rest =>
    cases rest with
    | nil => cases hbreak : isBreak c <;> simp [hbreak]
    | cons d rest =>
      cases hbreak : isBreak c <;> cases hbreak' : isBreak d <;> simp [hbreak, hbreak']

theorem indentHint_cases (s : List Char) : indentHint s = ['2'] ∨ indentHint s = [] := by
  unfold indentHint
  split
  · exact .inl rfl
  · exact .inr rfl

theorem lineFeed_not_mem_hints (s : List Char) : '\n' ∉ hints s := by
  rcases indentHint_cases s with hindent | hindent <;>
    rcases chompHint_cases s with ⟨-, hchomp⟩ | ⟨-, hchomp | hchomp⟩ <;>
    simp [hints, hindent, hchomp]

/-- The hints tell whether the text ends with a break. -/
theorem endsBroken_eq_hints (s : List Char) : endsBroken s = decide ('-' ∉ hints s) := by
  rcases indentHint_cases s with hindent | hindent <;>
    rcases chompHint_cases s with ⟨hend, hchomp⟩ | ⟨hend, hchomp | hchomp⟩ <;>
    simp [hints, hindent, hchomp, hend]

theorem chompHint_of_broken_twice {c d : Char} (hc : isBreak c = true) (hd : isBreak d = true) :
    chompHint (s ++ [d] ++ [c]) = ['+'] := by
  simp [chompHint, hc, hd]

theorem literalBody_zero (afterBreak : Bool) (s : List Char) : literalBody 0 afterBreak s = s := by
  induction s generalizing afterBreak with
  | nil => rfl
  | cons c s ih =>
    have hspaces : (if afterBreak then spaces 0 else []) = [] := by cases afterBreak <;> rfl
    simp [literalBody, hspaces, ih]

theorem literal_zero (s : List Char) : literal 0 s = '|' :: hints s ++ '\n' :: s := by
  rw [literal, hints, literalBody_zero]
  simp

theorem append_cons_injective {c : Char} {a a' b b' : List Char} (ha : c ∉ a) (ha' : c ∉ a')
    (h : a ++ c :: b = a' ++ c :: b') : a = a' ∧ b = b' := by
  induction a generalizing a' with
  | nil =>
    cases a' with
    | nil => exact ⟨rfl, List.tail_eq_of_cons_eq h⟩
    | cons d a' =>
      obtain ⟨rfl, -⟩ := List.cons.inj h
      exact absurd (List.mem_cons_self ..) ha'
  | cons d a ih =>
    cases a' with
    | nil =>
      obtain ⟨rfl, -⟩ := List.cons.inj h
      exact absurd (List.mem_cons_self ..) ha
    | cons e a' =>
      obtain ⟨rfl, hrest⟩ := List.cons.inj h
      obtain ⟨rfl, hb⟩ := ih (fun e => ha (List.mem_cons_of_mem _ e))
        (fun e => ha' (List.mem_cons_of_mem _ e)) hrest
      exact ⟨rfl, hb⟩

/-! ## Styles -/

/-- The style that the first character of a scalar tells. -/
def styleOf (c : Char) : Style :=
  if c = '\'' then .singleQuoted
  else if c = '"' then .doubleQuoted
  else if c = '|' then .literal
  else .plain

theorem quotes_cases (s : List Char) : quotes s = .singleQuoted ∨ quotes s = .doubleQuoted := by
  unfold quotes
  split
  · exact .inl rfl
  · exact .inr rfl

theorem literal_of_style : style s = .literal ↔ '\n' ∈ s ∧ allowsLiteral s = true := by
  unfold style
  by_cases hfeed : '\n' ∈ s
  · cases hallowed : allowsLiteral s <;> simp [hfeed]
  · rcases quotes_cases s with hquotes | hquotes <;> cases isReserved s <;> cases allowsPlain s <;>
      simp [hfeed, hquotes]

theorem plain_of_style (h : style s = .plain) : isReserved s = false ∧ allowsPlain s = true := by
  unfold style at h
  by_cases hfeed : '\n' ∈ s
  · cases hallowed : allowsLiteral s <;> simp [hfeed, hallowed] at h
  · rcases quotes_cases s with hquotes | hquotes <;> cases hreserved : isReserved s <;>
      cases hplain : allowsPlain s <;> simp_all

/-- A plain text does not start like any other scalar, and it holds no break. -/
theorem plain_shape (h : style s = .plain) :
    (∃ c rest, s = c :: rest ∧ styleOf c = .plain) ∧ ∀ c ∈ s, isBreak c = false := by
  obtain ⟨hreserved, hallowed⟩ := plain_of_style h
  simp only [allowsPlain, Bool.not_eq_true', Bool.or_eq_false_iff, List.any_eq_false] at hallowed
  obtain ⟨⟨⟨⟨⟨hstart, -⟩, -⟩, hbreaks⟩, -⟩, -⟩ := hallowed
  refine ⟨?_, fun c hc => by simpa using hbreaks c hc⟩
  cases s with
  | nil => exact absurd hreserved (by decide)
  | cons c rest =>
    refine ⟨c, rest, rfl, ?_⟩
    simp only [startsSpecially, Bool.or_eq_false_iff] at hstart
    have hmark : c ∉ indicators := by simpa using hstart.2.1
    have hne : ∀ d ∈ indicators, c ≠ d := fun d hd e => hmark (e ▸ hd)
    rw [styleOf, if_neg (hne '\'' (by decide)), if_neg (hne '"' (by decide)),
      if_neg (hne '|' (by decide))]

/-- The scalar without indentation, and the end of its line. -/
def written (s : List Char) : List Char := endLine (scalar 0 s)

section Written

theorem written_plain (h : style s = .plain) : written s = s ++ ['\n'] := by
  have hend : endsBroken s = false := by
    rw [endsBroken, Option.any_eq_false]
    intro c hc
    simpa using (plain_shape h).2 c (List.mem_of_getLast? hc)
  rw [written, scalar, h, endLine_eq, hend]
  rfl

theorem written_singleQuoted (h : style s = .singleQuoted) :
    written s = singleQuoted 0 s ++ ['\n'] := by
  have hend : endsBroken (singleQuoted 0 s) = false := by
    rw [singleQuoted, singleBody_zero, ← List.cons_append, endsBroken_concat]
    rfl
  rw [written, scalar, h]
  simp [endLine_eq, hend]

theorem written_doubleQuoted (h : style s = .doubleQuoted) :
    written s = doubleQuoted s ++ ['\n'] := by
  have hend : endsBroken (doubleQuoted s) = false := by
    rw [doubleQuoted, endsBroken_concat]
    rfl
  rw [written, scalar, h]
  simp [endLine_eq, hend]

theorem written_literal (h : style s = .literal) :
    written s = '|' :: hints s ++ '\n' :: endLine s := by
  have hne : s ≠ [] := by
    rintro rfl
    cases h
  have hsplit : '|' :: hints s ++ '\n' :: s = ('|' :: hints s ++ ['\n']) ++ s := by simp
  rw [written, scalar, h]
  simp only [literal_zero]
  rw [hsplit, endLine_append _ hne]
  simp

theorem getLast?_written_literal (h : style s = .literal) :
    (written s).getLast? = (endLine s).getLast? := by
  have hne : endLine s ≠ [] := fun e => by
    have hend := endsBroken_endLine s
    rw [e] at hend
    cases hend
  rw [written_literal h, List.getLast?_append, List.getLast?_cons,
    List.getLast?_eq_some_getLast hne]
  rfl

/-- The first character of a scalar tells its style. -/
theorem written_eq_cons (s : List Char) :
    ∃ c rest, written s = c :: rest ∧ styleOf c = style s := by
  cases h : style s with
  | plain =>
    obtain ⟨⟨c, rest, rfl, hc⟩, -⟩ := plain_shape h
    exact ⟨c, rest ++ ['\n'], written_plain h, hc⟩
  | singleQuoted => exact ⟨_, _, written_singleQuoted h, rfl⟩
  | doubleQuoted => exact ⟨_, _, written_doubleQuoted h, rfl⟩
  | literal => exact ⟨_, _, written_literal h, rfl⟩

theorem style_eq_of_head {t : List Char} (h : written s ++ t = written s') :
    style s = style s' := by
  obtain ⟨c, rest, hs, hc⟩ := written_eq_cons s
  obtain ⟨c', rest', hs', hc'⟩ := written_eq_cons s'
  rw [hs, hs'] at h
  rw [← hc, ← hc', List.head_eq_of_cons_eq h]

end Written

theorem literal_parts {t : List Char} (h : style s = .literal)
    (hsame : written s' = written s ++ t) :
    style s' = .literal ∧ hints s' = hints s ∧ endLine s' = endLine s ++ t := by
  have h' : style s' = .literal := (style_eq_of_head hsame.symm).symm.trans h
  rw [written_literal h, written_literal h', List.cons_append, List.cons_append, List.cons_append,
    List.append_assoc, List.cons_append] at hsame
  exact ⟨h', append_cons_injective (lineFeed_not_mem_hints s') (lineFeed_not_mem_hints s)
    (List.tail_eq_of_cons_eq hsame)⟩

theorem written_injective (h : written s = written s') : s = s' := by
  have hstyle : style s = style s' := style_eq_of_head ((List.append_nil _).trans h)
  cases hs : style s with
  | plain =>
    rw [written_plain hs, written_plain (hstyle.symm.trans hs)] at h
    exact List.append_cancel_right h
  | singleQuoted =>
    rw [written_singleQuoted hs, written_singleQuoted (hstyle.symm.trans hs)] at h
    exact singleQuoted_injective (List.append_cancel_right h)
  | doubleQuoted =>
    rw [written_doubleQuoted hs, written_doubleQuoted (hstyle.symm.trans hs)] at h
    exact doubleQuoted_injective (List.append_cancel_right h)
  | literal =>
    obtain ⟨-, hhints, hbody⟩ := literal_parts hs (h.symm.trans (List.append_nil _).symm)
    rw [List.append_nil] at hbody
    have hends : endsBroken s' = endsBroken s := by
      rw [endsBroken_eq_hints, endsBroken_eq_hints, hhints]
    rw [endLine_eq, endLine_eq, hends] at hbody
    split at hbody
    · exact hbody.symm
    · exact (List.append_cancel_right hbody).symm

theorem exists_concat_of_endsBroken (h : endsBroken s = true) :
    ∃ front d, s = front ++ [d] ∧ isBreak d = true := by
  rcases s.eq_nil_or_concat with rfl | ⟨front, d, rfl⟩
  · cases h
  · rw [List.concat_eq_append, endsBroken_concat] at h
    exact ⟨front, d, List.concat_eq_append, h⟩

/-- The text is written as a literal block that keeps all breaks at its end, and the last of them
is not a line feed. -/
structure Unterminated (s : List Char) : Prop where
  asksForBlock : '\n' ∈ s
  allowsBlock : allowsLiteral s = true
  keepsEnd : chompHint s = ['+']
  otherEnd : s.getLast? ≠ some '\n'

theorem hasPair_concat (first second : Char → Bool) (s : List Char) (c : Char) :
    hasPair first second (s ++ [c]) =
      (hasPair first second s || s.getLast?.any first && second c) := by
  induction s with
  | nil => rfl
  | cons a s ih =>
    cases s with
    | nil => simp [hasPair]
    | cons b s =>
      rw [List.cons_append, List.cons_append, hasPair, ← List.cons_append, ih, hasPair,
        List.getLast?_cons_cons, Bool.or_assoc]

theorem not_space_of_break {c : Char} (h : isBreak c = true) : isSpace c = false := by
  rw [isSpace, beq_eq_false_iff_ne]
  rintro rfl
  cases h

namespace Unterminated

variable (h : Unterminated s)

include h

theorem style_eq : style s = .literal := literal_of_style.2 ⟨h.asksForBlock, h.allowsBlock⟩

theorem endsBroken_eq : endsBroken s = true := by
  rcases chompHint_cases s with ⟨-, hchomp⟩ | ⟨hend, -⟩
  · rw [h.keepsEnd] at hchomp
    cases hchomp
  · exact hend

theorem getLast?_written : (written s).getLast? ≠ some '\n' := by
  rw [getLast?_written_literal h.style_eq, endLine_eq, h.endsBroken_eq]
  exact h.otherEnd

theorem style_concat : style (s ++ ['\n']) = .literal := by
  obtain ⟨front, d, rfl, hd⟩ := exists_concat_of_endsBroken h.endsBroken_eq
  refine literal_of_style.2 ⟨by simp, ?_⟩
  have hallowed := h.allowsBlock
  simp only [allowsLiteral, needsEscapes, Bool.not_eq_true', Bool.or_eq_false_iff] at hallowed ⊢
  obtain ⟨⟨hprintable, hpair⟩, -⟩ := hallowed
  refine ⟨⟨?_, ?_⟩, ?_⟩
  · rw [List.any_append, hprintable]
    rfl
  · rw [hasPair_concat, hpair, List.getLast?_concat]
    simp [not_space_of_break hd]
  · rw [List.getLast?_concat]
    rfl

theorem hints_concat : hints (s ++ ['\n']) = hints s := by
  obtain ⟨front, d, rfl, hd⟩ := exists_concat_of_endsBroken h.endsBroken_eq
  have hhead : (front ++ [d] ++ ['\n']).head? = (front ++ [d]).head? := by
    cases front <;> rfl
  rw [hints, hints, indentHint, indentHint, hhead, chompHint_of_broken_twice rfl hd, h.keepsEnd]

/-- A literal block of the text goes on with a line feed. -/
theorem written_concat : written (s ++ ['\n']) = written s ++ ['\n'] := by
  rw [written_literal h.style_concat, written_literal h.style_eq, h.hints_concat, endLine_eq,
    endLine_eq, endsBroken_concat, h.endsBroken_eq]
  simp [isBreak]

end Unterminated

/-- If a line feed more does not change the hints, they ask for all breaks at the end. -/
theorem keepsEnd_of_hints (hend : endsBroken s = true) (h : hints (s ++ ['\n']) = hints s) :
    chompHint s = ['+'] := by
  have hplus : '+' ∈ hints s := by
    obtain ⟨front, d, rfl, hd⟩ := exists_concat_of_endsBroken hend
    rw [← h, hints, chompHint_of_broken_twice rfl hd]
    exact List.mem_append_right _ (List.mem_singleton_self _)
  rcases chompHint_cases s with ⟨hopen, -⟩ | ⟨-, hchomp | hchomp⟩
  · rw [hend] at hopen
    cases hopen
  · exact hchomp
  · rw [hints, hchomp, List.append_nil] at hplus
    rcases indentHint_cases s with hindent | hindent <;> simp [hindent] at hplus

/-- If another text is written like the text with a line feed more, the text is unterminated and the
other one is the text with a line feed more. -/
theorem written_concat_iff :
    written s' = written s ++ ['\n'] ∧ (written s).getLast? ≠ some '\n' ↔
      Unterminated s ∧ s' = s ++ ['\n'] := by
  constructor
  · rintro ⟨hsame, hlast⟩
    have hstyle : style s = .literal := by
      cases hs : style s with
      | plain => simp [written_plain hs] at hlast
      | singleQuoted => simp [written_singleQuoted hs] at hlast
      | doubleQuoted => simp [written_doubleQuoted hs] at hlast
      | literal => rfl
    obtain ⟨-, hhints, hbody⟩ := literal_parts hstyle hsame
    rw [getLast?_written_literal hstyle] at hlast
    have hend : endsBroken s = true := by
      by_contra hopen
      rw [endLine_eq, if_neg hopen, List.getLast?_concat] at hlast
      exact hlast rfl
    have hend' : endsBroken s' = true := by
      rw [endsBroken_eq_hints, hhints, ← endsBroken_eq_hints, hend]
    rw [endLine_eq, hend, if_pos rfl] at hlast
    rw [endLine_eq, endLine_eq, hend, hend', if_pos rfl, if_pos rfl] at hbody
    subst hbody
    obtain ⟨hfeed, hallowed⟩ := literal_of_style.1 hstyle
    exact ⟨⟨hfeed, hallowed, keepsEnd_of_hints hend hhints, hlast⟩, rfl⟩
  · rintro ⟨h, rfl⟩
    exact ⟨h.written_concat, h.getLast?_written⟩

end Yaml
end RefManifest
