import RefManifest.Json.Print
import RefManifest.Json.Token

/-!
# RefManifest.Proofs.Json.Token

Scanning undoes printing, as far as tokens go.

An outline has its tokens whatever level it is printed at: line feeds and indentation make none
(`tokensFrom_newLine`), and a text in quotes makes one, whatever its characters, because every
escape is read back as the character it stands for (`tokensFrom_escapeChar`). `tokens_print` puts
this together for a record of any depth, with any text behind it.
-/

namespace RefManifest
namespace Json

variable (level : Nat) (rest : List Char)

theorem tokensFrom_spaces (n : Nat) :
    tokensFrom .between (List.replicate n ' ' ++ rest) = tokensFrom .between rest := by
  induction n with
  | zero => rfl
  | succ n ih => exact ih

theorem tokensFrom_newLine :
    tokensFrom .between (newLine level ++ rest) = tokensFrom .between rest :=
  tokensFrom_spaces rest (2 * level)

theorem tokensFrom_comma : tokensFrom .between (',' :: rest) = .comma :: tokensFrom .between rest :=
  rfl

theorem hexValue?_digitChar : ∀ d < 16, Text.hexValue? (Nat.digitChar d) = some d := by decide

theorem tokensFrom_control {c : Char} (h : c.toNat < 0x20) (read : List Char) :
    tokensFrom (.text read none true)
        (['\\', 'u', '0', '0', Nat.digitChar (c.toNat / 16), Nat.digitChar (c.toNat % 16)] ++
          rest) =
      tokensFrom (.text (c :: read) none true) rest := by
  have hzero : Text.hexValue? '0' = some 0 := by decide
  have hhigh := hexValue?_digitChar (c.toNat / 16) (by omega)
  have hlow := hexValue?_digitChar (c.toNat % 16) (by omega)
  have hnumber : c.toNat / 16 * 16 + c.toNat % 16 = c.toNat := by omega
  have hmode : unitMode read none true c.toNat = .text (c :: read) none true := by
    have hsmall : isLowSurrogate c.toNat = false ∧ isHighSurrogate c.toNat = false := by
      simp only [isLowSurrogate, isHighSurrogate, Bool.and_eq_false_iff, decide_eq_false_iff_not]
      omega
    simp [unitMode, hsmall.1, hsmall.2, Char.ofNat_toNat]
  simp [tokensFrom, turn, hzero, hhigh, hlow, hnumber, hmode]

/-- What is printed for a character is read back as that character. -/
theorem tokensFrom_escapeChar (c : Char) (read : List Char) :
    tokensFrom (.text read none true) (escapeChar c ++ rest) =
      tokensFrom (.text (c :: read) none true) rest := by
  unfold escapeChar
  split
  · subst c; rfl
  split
  · subst c; rfl
  split
  · subst c; rfl
  split
  · subst c; rfl
  split
  · subst c; rfl
  split
  · subst c; rfl
  split
  · subst c; rfl
  split
  · rename_i hcontrol
    exact tokensFrom_control rest hcontrol read
  · rename_i hquote hslash _ _ _ _ _ hcontrol
    simp [tokensFrom, turn, hquote, hslash, hcontrol]

theorem tokensFrom_body (s read : List Char) :
    tokensFrom (.text read none true) (s.flatMap escapeChar ++ '"' :: rest) =
      .text (read.reverse ++ s) :: tokensFrom .between rest := by
  induction s generalizing read with
  | nil => simp [tokensFrom, turn]
  | cons c s ih =>
    rw [List.flatMap_cons, List.append_assoc, tokensFrom_escapeChar, ih]
    simp

theorem tokensFrom_printText (s : List Char) :
    tokensFrom .between (printText s ++ rest) = .text s :: tokensFrom .between rest := by
  have hbody := tokensFrom_body rest s []
  simpa [printText, tokensFrom, turn, begin] using hbody

/-! ## Outlines -/

mutual

/-- The tokens of a value. -/
def valueTokens : Outline → List Token
  | .text s => [.text s]
  | .records rs => .openBracket :: recordsTokens rs ++ [.closeBracket]

def recordsTokens : List Outline.Fields → List Token
  | [] => []
  | [r] => .openBrace :: fieldsTokens r ++ [.closeBrace]
  | r :: r' :: rs =>
    .openBrace :: fieldsTokens r ++ .closeBrace :: .comma :: recordsTokens (r' :: rs)

def fieldsTokens : Outline.Fields → List Token
  | [] => []
  | [f] => fieldTokens f
  | f :: f' :: fs => fieldTokens f ++ .comma :: fieldsTokens (f' :: fs)

def fieldTokens : String × Outline → List Token
  | (name, x) => .text name.toList :: .colon :: valueTokens x

end

/-- Brackets make a token each, and the members between them their own. -/
theorem tokensFrom_enclose {opening closing : Char} {t t' : Token}
    (hopening : ∀ rest, tokensFrom .between (opening :: rest) = t :: tokensFrom .between rest)
    (hclosing : ∀ rest, tokensFrom .between (closing :: rest) = t' :: tokensFrom .between rest)
    {s : List Char} {ts : List Token}
    (hs : ∀ rest, tokensFrom .between (s ++ rest) = ts ++ tokensFrom .between rest) :
    tokensFrom .between (enclose opening closing level s ++ rest) =
      t :: ts ++ t' :: tokensFrom .between rest := by
  cases s with
  | nil =>
    have hnone : ts = [] := by simpa [tokensFrom, atEnd] using hs []
    rw [hnone]
    simp [enclose, hopening, hclosing]
  | cons c s =>
    have hmembers := hs (newLine level ++ closing :: rest)
    simp only [enclose, List.cons_append, List.append_assoc, List.nil_append] at hmembers ⊢
    rw [hopening, tokensFrom_newLine, hmembers, tokensFrom_newLine, hclosing]

mutual

theorem tokensFrom_printValue (level : Nat) (rest : List Char) : (x : Outline) →
    tokensFrom .between (printValue level x ++ rest) = valueTokens x ++ tokensFrom .between rest
  | .text s => tokensFrom_printText rest s
  | .records rs => by
    rw [printValue, valueTokens, tokensFrom_enclose level rest (fun _ => rfl) (fun _ => rfl)
      fun rest => tokensFrom_printRecords (level + 1) rest rs]
    simp

theorem tokensFrom_printRecords (level : Nat) (rest : List Char) : (rs : List Outline.Fields) →
    tokensFrom .between (printRecords level rs ++ rest) =
      recordsTokens rs ++ tokensFrom .between rest
  | [] => rfl
  | [r] => by
    rw [printRecords, recordsTokens, tokensFrom_enclose level rest (fun _ => rfl) (fun _ => rfl)
      fun rest => tokensFrom_printFields (level + 1) rest r]
    simp
  | r :: r' :: rs => by
    simp only [printRecords, recordsTokens, List.append_assoc, List.cons_append]
    rw [tokensFrom_enclose level _ (fun _ => rfl) (fun _ => rfl)
      fun rest => tokensFrom_printFields (level + 1) rest r, tokensFrom_comma, tokensFrom_newLine,
      tokensFrom_printRecords level rest (r' :: rs)]
    simp

theorem tokensFrom_printFields (level : Nat) (rest : List Char) : (fs : Outline.Fields) →
    tokensFrom .between (printFields level fs ++ rest) =
      fieldsTokens fs ++ tokensFrom .between rest
  | [] => rfl
  | [f] => tokensFrom_printField level rest f
  | f :: f' :: fs => by
    simp only [printFields, fieldsTokens, List.append_assoc, List.cons_append]
    rw [tokensFrom_printField level _ f, tokensFrom_comma, tokensFrom_newLine,
      tokensFrom_printFields level rest (f' :: fs)]

theorem tokensFrom_printField (level : Nat) (rest : List Char) : (f : String × Outline) →
    tokensFrom .between (printField level f ++ rest) = fieldTokens f ++ tokensFrom .between rest
  | (name, x) => by
    have hcolon : ∀ s, tokensFrom .between (':' :: ' ' :: s) = .colon :: tokensFrom .between s :=
      fun _ => rfl
    rw [printField, fieldTokens, List.append_assoc, tokensFrom_printText, List.cons_append,
      List.cons_append, hcolon, tokensFrom_printValue level rest x]
    rfl

end

theorem tokens_print (fields : Outline.Fields) :
    tokensFrom .between (print fields ++ rest) =
      .openBrace :: fieldsTokens fields ++ .closeBrace :: tokensFrom .between rest :=
  tokensFrom_enclose 0 rest (fun _ => rfl) (fun _ => rfl)
    fun rest => tokensFrom_printFields 1 rest fields

end Json
end RefManifest
