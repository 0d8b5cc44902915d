import Mathlib.Data.Nat.Digits.Defs
import RefManifest.Text.Hex
import RefManifest.Yaml.Scalar

/-!
# RefManifest.Proofs.Yaml.Quoted

Texts in quotes can be read back.

Both kinds of quotes write a text character by character. What is written for a character tells the
character, whatever comes after it: in double quotes every escape is read by its letter or by its
digits (`frontChar?_escapeChar`), in single quotes a quote is written twice. So what is written for
a text tells the text (`flatMap_injective`).
-/

namespace RefManifest
namespace Yaml

open Text

variable {s s' : List Char}

/-- What is written character by character tells the text, if what is written for a character tells
it from whatever follows. -/
theorem flatMap_injective {code : Char → List Char} (hne : ∀ c, code c ≠ [])
    (hfront : ∀ c d r r', code c ++ r = code d ++ r' → c = d)
    (h : s.flatMap code = s'.flatMap code) : s = s' := by
  induction s generalizing s' with
  | nil =>
    cases s' with
    | nil => rfl
    | cons d s' => simp [hne] at h
  | cons c s ih =>
    cases s' with
    | nil => simp [hne] at h
    | cons d s' =>
      rw [List.flatMap_cons, List.flatMap_cons] at h
      obtain rfl := hfront c d _ _ h
      rw [ih (List.append_cancel_left h)]

theorem hexNumber?_append (n : Nat) (a b : List Char) :
    hexNumber? n (a ++ b) = (hexNumber? n a).bind fun m => hexNumber? m b := by
  induction a generalizing n with
  | nil => rfl
  | cons c a ih =>
    simp only [List.cons_append, hexNumber?]
    cases hexValue? c with
    | none => rfl
    | some d => exact ih _

theorem hexNumber?_zeros (k : Nat) (digits : List Char) :
    hexNumber? 0 (List.replicate k '0' ++ digits) = hexNumber? 0 digits := by
  induction k with
  | zero => rfl
  | succ k ih => exact ih

theorem hexValue?_upper : ∀ d < 16, hexValue? (Nat.digitChar d).toUpper = some d := by decide

theorem hexNumber?_toDigits (n : Nat) :
    hexNumber? 0 ((Nat.toDigits 16 n).map Char.toUpper) = some n := by
  induction n using Nat.strongRecOn with
  | ind n ih =>
    rw [Nat.toDigits_eq_if (by decide)]
    split
    · rename_i hsmall
      simp [hexNumber?, hexValue?_upper n hsmall]
    · rename_i hlarge
      have hlast := hexValue?_upper (n % 16) (Nat.mod_lt _ (by decide))
      have hnumber : n / 16 * 16 + n % 16 = n := by omega
      rw [List.map_append, hexNumber?_append, ih (n / 16) (by omega)]
      simp [hexNumber?, hlast, hnumber]

/-- The digits of an escape. -/
def hexDigits (width n : Nat) : List Char := (escapeHex 'x' width n).drop 2

theorem escapeHex_eq (mark : Char) (width n : Nat) :
    escapeHex mark width n = '\\' :: mark :: hexDigits width n := rfl

theorem hexNumber?_hexDigits (width n : Nat) : hexNumber? 0 (hexDigits width n) = some n :=
  (hexNumber?_zeros _ _).trans (hexNumber?_toDigits n)

theorem length_hexDigits {width n : Nat} (hwidth : 0 < width) (h : n < 16 ^ width) :
    (hexDigits width n).length = width := by
  have hshort := (Nat.length_toDigits_le_iff (by decide : 1 < 16) hwidth).2 h
  simp [hexDigits, escapeHex]
  omega

theorem scalar?_hexDigits {width : Nat} {c : Char} (hwidth : 0 < width)
    (h : c.toNat < 16 ^ width) (rest : List Char) :
    scalar? ((hexDigits width c.toNat ++ rest).take width) = some c := by
  have hvalid : c.toNat < 0xD800 ∨ 0xDFFF < c.toNat ∧ c.toNat < 0x110000 := c.valid
  rw [List.take_left' (length_hexDigits hwidth h), scalar?, hexNumber?_hexDigits]
  simp only [if_pos hvalid, Char.ofNat_toNat]

/-- The characters that are escaped by a letter or a mark. -/
def namedEscapes : List (Char × Char) :=
  [('"', '"'), ('\\', '\\'), ('N', '\x85'), ('L', '\u2028'), ('P', '\u2029'), ('0', '\x00'),
    ('a', '\x07'), ('b', '\x08'), ('t', '\t'), ('n', '\n'), ('v', '\x0b'), ('f', '\x0c'),
    ('r', '\r'), ('e', '\x1b')]

/-- The character that an escape stands for, without its backslash. -/
def escaped? : List Char → Option Char
  | [] => none
  | mark :: rest =>
    if mark = 'x' then scalar? (rest.take 2)
    else if mark = 'u' then scalar? (rest.take 4)
    else if mark = 'U' then scalar? (rest.take 8)
    else namedEscapes.lookup mark

def frontChar? : List Char → Option Char
  | [] => none
  | c :: rest => if c = '\\' then escaped? rest else some c

theorem frontChar?_escapeHex {mark c : Char} {width : Nat} (hwidth : 0 < width)
    (h : c.toNat < 16 ^ width)
    (hmark : ∀ rest, escaped? (mark :: rest) = scalar? (rest.take width)) (rest : List Char) :
    frontChar? (escapeHex mark width c.toNat ++ rest) = some c :=
  (hmark _).trans (scalar?_hexDigits hwidth h rest)

theorem frontChar?_ite {p : Prop} [Decidable p] {a b rest : List Char} {c : Char}
    (ha : p → frontChar? (a ++ rest) = some c) (hb : ¬ p → frontChar? (b ++ rest) = some c) :
    frontChar? ((if p then a else b) ++ rest) = some c := by
  split
  · exact ha ‹_›
  · exact hb ‹_›

/-- What is written for a character in double quotes tells it. -/
theorem frontChar?_escapeChar (c : Char) (rest : List Char) :
    frontChar? (escapeChar c ++ rest) = some c := by
  unfold escapeChar
  refine frontChar?_ite (by rintro rfl; rfl) fun _ => ?_
  refine frontChar?_ite (by rintro rfl; rfl) fun hslash => ?_
  iterate 3 refine frontChar?_ite (by rintro rfl; rfl) fun _ => ?_
  refine frontChar?_ite (fun _ => if_neg hslash) fun _ => ?_
  iterate 9 refine frontChar?_ite (by rintro rfl; rfl) fun _ => ?_
  refine frontChar?_ite (fun _ => ?_) fun _ => frontChar?_ite (fun _ => ?_) fun _ => ?_
  · exact frontChar?_escapeHex (by decide) (by omega) (fun _ => rfl) rest
  · exact frontChar?_escapeHex (by decide) (by omega) (fun _ => rfl) rest
  · have hvalid : c.toNat < 0xD800 ∨ 0xDFFF < c.toNat ∧ c.toNat < 0x110000 := c.valid
    exact frontChar?_escapeHex (by decide) (by omega) (fun _ => rfl) rest

theorem doubleQuoted_injective (h : doubleQuoted s = doubleQuoted s') : s = s' := by
  have hne : ∀ c, escapeChar c ≠ [] := fun c e => by
    have hfront := frontChar?_escapeChar c []
    rw [e] at hfront
    cases hfront
  have hbody := List.append_cancel_right (List.tail_eq_of_cons_eq h)
  refine flatMap_injective hne (fun c d r r' hcode => ?_) hbody
  have hfront := frontChar?_escapeChar c r
  rw [hcode, frontChar?_escapeChar] at hfront
  exact (Option.some.inj hfront).symm

def quoteChar (c : Char) : List Char := if c = '\'' then ['\'', '\''] else [c]

theorem singleBody_zero (afterBreak : Bool) (s : List Char) :
    singleBody 0 afterBreak s = s.flatMap quoteChar ++ ['\''] := by
  induction s generalizing afterBreak with
  | nil => cases afterBreak <;> rfl
  | cons c s ih =>
    have hspaces : (if afterBreak then spaces 0 else []) = [] := by cases afterBreak <;> rfl
    simp only [singleBody, List.flatMap_cons, quoteChar, hspaces, ih]
    by_cases hbreak : isBreak c = true
    · have hquote : c ≠ '\'' := by
        rintro rfl
        cases hbreak
      simp [hbreak, hquote]
    · simp [hbreak]

theorem singleQuoted_injective (h : singleQuoted 0 s = singleQuoted 0 s') : s = s' := by
  have hbody : s.flatMap quoteChar ++ ['\''] = s'.flatMap quoteChar ++ ['\''] := by
    rw [← singleBody_zero false, ← singleBody_zero false]
    exact List.tail_eq_of_cons_eq h
  have hcode : ∀ c, ∃ more, quoteChar c = c :: more := by
    intro c
    unfold quoteChar
    split
    · subst c
      exact ⟨_, rfl⟩
    · exact ⟨_, rfl⟩
  refine flatMap_injective (fun c => ?_) (fun c d r r' hsame => ?_)
    (List.append_cancel_right hbody)
  · obtain ⟨more, hc⟩ := hcode c
    rw [hc]
    exact List.cons_ne_nil _ _
  · obtain ⟨more, hc⟩ := hcode c
    obtain ⟨more', hd⟩ := hcode d
    rw [hc, hd] at hsame
    exact List.head_eq_of_cons_eq hsame

end Yaml
end RefManifest
