import RefManifest.Proofs.Yaml.Scalar

/-!
# RefManifest.Proofs.Yaml.Indentation

Indented lines, and what may follow them.

`literalBody k` indents every line of a text but the first and the empty ones. The text can be read
back, and what follows it as well if that is less indented (`literalBody_injective`). A scalar in
any place is the scalar of the first column with its lines indented (`endLine_scalar`), so
indentation and scalars can be read one after the other.
-/

namespace RefManifest
namespace Yaml

variable {k : Nat} {v w r r' : List Char}

/-- The text does not go on with a line that is indented by `k`, or with an empty one. -/
def Outdented (k : Nat) (r : List Char) : Prop :=
  r = [] ∨ ∃ j < k, ∃ c rest, r = spaces j ++ c :: rest ∧ isSpace c = false ∧ isBreak c = false

theorem Outdented.ne_break (h : Outdented k r) {c : Char} (hc : isBreak c = true)
    (rest : List Char) : c :: rest ≠ r := by
  rintro rfl
  rcases h with hnil | ⟨j, -, d, more, heq, -, hd⟩
  · cases hnil
  · cases j with
    | zero =>
      cases heq
      rw [hc] at hd
      cases hd
    | succ j =>
      cases heq
      cases hc

theorem Outdented.ne_indented (h : Outdented k r) (hk : 0 < k) (rest : List Char) :
    spaces k ++ rest ≠ r := by
  rintro rfl
  rcases h with hnil | ⟨j, hj, d, more, heq, hd, -⟩
  · have hlen := congrArg List.length hnil
    simp [spaces] at hlen
    omega
  · have hspace : (spaces k ++ rest)[j]? = some ' ' := by
      rw [List.getElem?_append_left (by simpa [spaces] using hj)]
      simp [spaces, hj]
    have hother : (spaces j ++ d :: more)[j]? = some d := by simp [spaces]
    rw [heq, hother] at hspace
    cases hspace
    cases hd

/-- Whether the lines are complete, if they start after a break or not. -/
def closes : Bool → List Char → Bool
  | afterBreak, [] => afterBreak
  | _, c :: rest => closes (isBreak c) rest

theorem closes_of_endsBroken {b : Bool} (h : endsBroken v = true) : closes b v = true := by
  induction v generalizing b with
  | nil => cases h
  | cons c v ih =>
    rw [closes]
    cases v with
    | nil => exact h
    | cons d v => exact ih h

theorem literalBody_cons_break {c : Char} (hc : isBreak c = true) (b : Bool) (v : List Char) :
    literalBody k b (c :: v) = c :: literalBody k true v := by
  rw [literalBody, if_pos hc]

theorem literalBody_cons {c : Char} (hc : isBreak c = false) (b : Bool) (v : List Char) :
    literalBody k b (c :: v) = (if b then spaces k else []) ++ c :: literalBody k false v := by
  rw [literalBody, hc]
  rfl

/-- Where a line of the value starts, none that is less indented does. -/
theorem Outdented.ne_literalBody (h : Outdented k r) (hk : 0 < k) (c : Char) (v r' : List Char) :
    literalBody k true (c :: v) ++ r' ≠ r := by
  cases hc : isBreak c with
  | true =>
    rw [literalBody_cons_break hc]
    exact h.ne_break hc _
  | false =>
    rw [literalBody_cons hc, if_pos rfl, List.append_assoc]
    exact h.ne_indented hk _

theorem literalBody_ne_break {c d : Char} (hc : isBreak c = true) (hd : isBreak d = false)
    (b : Bool) (v rest : List Char) : literalBody k b (d :: v) ++ r ≠ c :: rest := by
  have hspace : isBreak ' ' = false := rfl
  rw [literalBody_cons hd]
  rintro h
  cases b <;> cases k <;> cases h <;> simp_all

/-- Indented lines are told from what follows, and so is the text they hold. -/
theorem literalBody_injective (hk : 0 < k) {b : Bool} (hv : closes b v = true)
    (hw : closes b w = true) (hr : Outdented k r) (hr' : Outdented k r')
    (h : literalBody k b v ++ r = literalBody k b w ++ r') : v = w ∧ r = r' := by
  induction v generalizing b w with
  | nil =>
    cases w with
    | nil => exact ⟨rfl, h⟩
    | cons d w =>
      cases hv
      exact absurd h.symm (hr.ne_literalBody hk d w r')
  | cons c v ih =>
    cases w with
    | nil =>
      cases hw
      exact absurd h (hr'.ne_literalBody hk c v r)
    | cons d w =>
      rw [closes] at hv hw
      cases hc : isBreak c with
      | true =>
        cases hd : isBreak d with
        | true =>
          rw [hc] at hv
          rw [hd] at hw
          rw [literalBody_cons_break hc, literalBody_cons_break hd] at h
          obtain ⟨rfl, hrest⟩ := List.cons.inj h
          obtain ⟨rfl, hr⟩ := ih hv hw hrest
          exact ⟨rfl, hr⟩
        | false =>
          rw [literalBody_cons_break hc] at h
          exact absurd h.symm (literalBody_ne_break hc hd b w _)
      | false =>
        cases hd : isBreak d with
        | true =>
          rw [literalBody_cons_break hd] at h
          exact absurd h (literalBody_ne_break hd hc b v _)
        | false =>
          rw [hc] at hv
          rw [hd] at hw
          rw [literalBody_cons hc, literalBody_cons hd, List.append_assoc, List.append_assoc] at h
          obtain ⟨rfl, hrest⟩ := List.cons.inj (List.append_cancel_left h)
          obtain ⟨rfl, hr⟩ := ih hv hw hrest
          exact ⟨rfl, hr⟩

/-! ## Indentation of scalars -/

theorem literalBody_of_unbroken (hv : ∀ c ∈ v, isBreak c = false) (w : List Char) :
    literalBody k false (v ++ w) = v ++ literalBody k false w := by
  induction v with
  | nil => rfl
  | cons c v ih =>
    obtain ⟨hc, hrest⟩ := List.forall_mem_cons.1 hv
    rw [List.cons_append, literalBody_cons hc, ih hrest]
    rfl

theorem literalBody_concat_break (k : Nat) (b : Bool) (v : List Char) {c : Char}
    (hc : isBreak c = true) : literalBody k b (v ++ [c]) = literalBody k b v ++ [c] := by
  induction v generalizing b with
  | nil => exact literalBody_cons_break hc b []
  | cons d v ih =>
    cases hd : isBreak d with
    | true =>
      rw [List.cons_append, literalBody_cons_break hd, literalBody_cons_break hd, ih]
      rfl
    | false =>
      rw [List.cons_append, literalBody_cons hd, literalBody_cons hd, ih, List.append_assoc,
        List.cons_append]

theorem literalBody_quoteChar {c : Char} (hc : isBreak c = false) (b : Bool) (v : List Char) :
    literalBody k b (quoteChar c ++ v) =
      (if b then spaces k else []) ++ quoteChar c ++ literalBody k false v := by
  unfold quoteChar
  split
  · subst c
    rw [List.cons_append, List.singleton_append, literalBody_cons hc, literalBody_cons hc]
    simp
  · rw [List.singleton_append, literalBody_cons hc, List.append_assoc, List.singleton_append]

theorem singleBody_eq (k : Nat) (b : Bool) (s : List Char) :
    singleBody k b s = literalBody k b (s.flatMap quoteChar ++ ['\'']) := by
  induction s generalizing b with
  | nil => exact (literalBody_cons rfl b []).symm
  | cons c s ih =>
    have hsplit : (c :: s).flatMap quoteChar ++ ['\''] =
        quoteChar c ++ (s.flatMap quoteChar ++ ['\'']) := by
      rw [List.flatMap_cons, List.append_assoc]
    rw [singleBody, hsplit, ih, ih]
    cases hc : isBreak c with
    | true =>
      have hcode : quoteChar c = [c] := if_neg (by rintro rfl; cases hc)
      rw [hcode, List.singleton_append, literalBody_cons_break hc, if_pos rfl]
    | false =>
      rw [literalBody_quoteChar hc, if_neg Bool.false_ne_true]
      rfl

theorem not_break_of_hexNumber {digits : List Char} {n m : Nat}
    (h : Text.hexNumber? n digits = some m) : ∀ x ∈ digits, isBreak x = false := by
  induction digits generalizing n with
  | nil => simp
  | cons d digits ih =>
    rw [Text.hexNumber?] at h
    split at h
    · rename_i value hvalue
      refine List.forall_mem_cons.2 ⟨?_, ih h⟩
      by_contra hd
      simp only [Bool.not_eq_false, isBreak, Bool.or_eq_true, beq_iff_eq] at hd
      rcases hd with (((rfl | rfl) | rfl) | rfl) | rfl <;> cases hvalue
    · cases h

theorem unbroken_of_all {v : List Char} (h : v.all (fun c => !isBreak c) = true) :
    ∀ x ∈ v, isBreak x = false := by
  intro x hx
  simpa using List.all_eq_true.1 h x hx

theorem unbroken_ite {p : Prop} [Decidable p] {a b : List Char}
    (ha : p → ∀ x ∈ a, isBreak x = false) (hb : ¬ p → ∀ x ∈ b, isBreak x = false) :
    ∀ x ∈ (if p then a else b), isBreak x = false := by
  split
  · exact ha ‹_›
  · exact hb ‹_›

theorem unbroken_escapeHex {mark : Char} (hmark : isBreak mark = false) (width n : Nat) :
    ∀ x ∈ escapeHex mark width n, isBreak x = false := by
  rw [escapeHex_eq]
  exact List.forall_mem_cons.2 ⟨rfl, List.forall_mem_cons.2
    ⟨hmark, not_break_of_hexNumber (hexNumber?_hexDigits width n)⟩⟩

theorem unbroken_escapeChar (c : Char) : ∀ x ∈ escapeChar c, isBreak x = false := by
  unfold escapeChar
  iterate 5 refine unbroken_ite (fun _ => unbroken_of_all rfl) fun _ => ?_
  refine unbroken_ite (fun hshown => ?_) fun _ => ?_
  · simpa using (Bool.and_eq_true_iff.1 hshown).2
  iterate 9 refine unbroken_ite (fun _ => unbroken_of_all rfl) fun _ => ?_
  exact unbroken_ite (fun _ => unbroken_escapeHex rfl 2 _) fun _ =>
    unbroken_ite (fun _ => unbroken_escapeHex rfl 4 _) fun _ => unbroken_escapeHex rfl 8 _

theorem unbroken_doubleQuoted (s : List Char) : ∀ x ∈ doubleQuoted s, isBreak x = false := by
  intro x hx
  simp only [doubleQuoted, List.mem_append, List.mem_cons, List.mem_flatMap, List.not_mem_nil,
    or_false] at hx
  rcases hx with (rfl | ⟨c, -, hx⟩) | rfl
  · rfl
  · exact unbroken_escapeChar c x hx
  · rfl

theorem unbroken_hints (s : List Char) : ∀ x ∈ hints s, isBreak x = false := by
  rcases indentHint_cases s with hindent | hindent <;>
    rcases chompHint_cases s with ⟨-, hchomp⟩ | ⟨-, hchomp | hchomp⟩ <;>
    rw [hints, hindent, hchomp] <;> exact unbroken_of_all rfl

/-- The lines of a scalar that is indented are those of the scalar that is not. -/
theorem scalar_eq (k : Nat) (s : List Char) :
    scalar k s = literalBody k false (scalar 0 s) := by
  have hwhole : ∀ v, (∀ c ∈ v, isBreak c = false) → literalBody k false v = v := fun v hv => by
    have hbody := @literalBody_of_unbroken k v hv []
    rwa [List.append_nil, literalBody, List.append_nil] at hbody
  unfold scalar
  cases h : style s with
  | plain => exact (hwhole s (plain_shape h).2).symm
  | singleQuoted =>
    simp only [singleQuoted]
    rw [singleBody_zero, singleBody_eq, literalBody_cons rfl]
    rfl
  | doubleQuoted => exact (hwhole _ (unbroken_doubleQuoted s)).symm
  | literal =>
    have hheader : ∀ x ∈ '|' :: hints s, isBreak x = false :=
      List.forall_mem_cons.2 ⟨rfl, unbroken_hints s⟩
    simp only [literal_zero]
    rw [literalBody_of_unbroken hheader, literalBody_cons_break rfl, literal, hints]
    simp

theorem exists_literalBody_concat (k : Nat) (b : Bool) (v : List Char) (c : Char) :
    ∃ t, literalBody k b (v ++ [c]) = t ++ [c] := by
  induction v generalizing b with
  | nil =>
    cases hc : isBreak c with
    | true => exact ⟨[], literalBody_cons_break hc b []⟩
    | false => exact ⟨_, literalBody_cons hc b []⟩
  | cons d v ih =>
    cases hd : isBreak d with
    | true =>
      obtain ⟨t, ht⟩ := ih true
      exact ⟨d :: t, by rw [List.cons_append, literalBody_cons_break hd, ht, List.cons_append]⟩
    | false =>
      obtain ⟨t, ht⟩ := ih false
      refine ⟨(if b then spaces k else []) ++ d :: t, ?_⟩
      rw [List.cons_append, literalBody_cons hd, ht, List.append_assoc, List.cons_append]

theorem endLine_literalBody (k : Nat) (b : Bool) (hv : v ≠ []) :
    endLine (literalBody k b v) = literalBody k b (endLine v) := by
  have hends : endsBroken (literalBody k b v) = endsBroken v := by
    rcases v.eq_nil_or_concat with rfl | ⟨front, c, rfl⟩
    · exact absurd rfl hv
    · obtain ⟨t, ht⟩ := exists_literalBody_concat k b front c
      rw [List.concat_eq_append, ht, endsBroken_concat, endsBroken_concat]
  rw [endLine_eq, endLine_eq, hends]
  split
  · rfl
  · exact (literalBody_concat_break k b v rfl).symm

theorem endLine_cons {c : Char} (hc : isBreak c = false) (v : List Char) :
    endLine (c :: v) = c :: endLine v := by
  cases v with
  | nil => simp [endLine, hc]
  | cons d v => exact endLine_append [c] (List.cons_ne_nil d v)

/-- A scalar behind its name, in terms of the one that is not indented. -/
theorem endLine_scalar (k : Nat) (s : List Char) :
    endLine (' ' :: scalar k s) = literalBody k false (' ' :: written s) := by
  have hspace : ' ' :: scalar k s = literalBody k false (' ' :: scalar 0 s) := by
    rw [literalBody_cons rfl, scalar_eq]
    rfl
  rw [hspace, endLine_literalBody k false (List.cons_ne_nil _ _), endLine_cons rfl, written]

end Yaml
end RefManifest
