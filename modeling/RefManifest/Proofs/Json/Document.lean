import RefManifest.Json.Document
import RefManifest.Proofs.Json.Token

/-!
# RefManifest.Proofs.Json.Document

Reading undoes printing, as far as the tree goes.

A reader that waits for a value inside some frames takes the tokens of an outline off the front,
puts the document of that outline into the innermost frame and goes on with what follows
(`readFrom_value`). The proof follows the shape of outlines, with one statement for each place in
which a reader can be inside a list or an object. `ofTokens_print` is the case without frames.
-/

namespace RefManifest
namespace Json
namespace Document

variable {frames : List Frame}

mutual

def ofOutline : Outline → Document
  | .text s => .text s
  | .records rs => .list (ofRecords rs)

def ofRecords : List Outline.Fields → List Document
  | [] => []
  | r :: rs => .object (ofFields r) :: ofRecords rs

def ofFields : Outline.Fields → List (Document × Document)
  | [] => []
  | f :: fs => ofField f :: ofFields fs

def ofField : String × Outline → Document × Document
  | (name, x) => (.text name.toList, ofOutline x)

end

theorem ofRecords_map {α : Type} (outline : α → Outline.Fields) (xs : List α) :
    ofRecords (xs.map outline) = xs.map fun x => .object (ofFields (outline x)) := by
  induction xs with
  | nil => rfl
  | cons x xs ih => rw [List.map_cons, ofRecords, ih, List.map_cons]

/-! ## Reading -/

/-- Goes on after a turn. -/
def resume : Turn → List Token → Document × List Token
  | .go next frames, rest => readFrom frames next rest
  | .done d, rest => (d, rest)
  | .stop d, rest => (d, rest)

theorem readFrom_cons (expecting : Expecting) (t : Token) (rest : List Token) :
    readFrom frames expecting (t :: rest) = resume (turn frames expecting t) rest := by
  rw [readFrom]
  cases turn frames expecting t <;> rfl

/-- The first key of an object is read like any other. -/
theorem readFrom_firstKey {fs : Outline.Fields} (h : fs ≠ []) (rest : List Token) :
    readFrom frames .firstKey (fieldsTokens fs ++ rest) =
      readFrom frames (.nextKey []) (fieldsTokens fs ++ rest) := by
  match fs with
  | [] => exact absurd rfl h
  | [(name, x)] => rfl
  | (name, x) :: f :: fs => rfl

theorem readFrom_firstItem {rs : List Outline.Fields} (h : rs ≠ []) (rest : List Token) :
    readFrom frames .firstItem (recordsTokens rs ++ rest) =
      readFrom (.list [] :: frames) .value (recordsTokens rs ++ rest) := by
  match rs with
  | [] => exact absurd rfl h
  | [r] => rfl
  | r :: r' :: rs => rfl

section Separators

variable (d : Document) (before : List Document) (fields : List (Document × Document))
  (rest : List Token)

theorem resume_item_comma :
    resume (settle d (.list before :: frames)) (.comma :: rest) =
      readFrom (.list (d :: before) :: frames) .value rest :=
  readFrom_cons (.afterItem (d :: before)) .comma rest

theorem resume_item_close :
    resume (settle d (.list before :: frames)) (.closeBracket :: rest) =
      resume (settle (.list (d :: before).reverse) frames) rest :=
  readFrom_cons (.afterItem (d :: before)) .closeBracket rest

theorem readFrom_field_comma :
    readFrom frames (.afterField fields) (.comma :: rest) =
      readFrom frames (.nextKey fields) rest :=
  readFrom_cons ..

theorem readFrom_field_close :
    readFrom frames (.afterField fields) (.closeBrace :: rest) =
      resume (settle (.object fields.reverse) frames) rest :=
  readFrom_cons ..

end Separators

mutual

theorem readFrom_value : (x : Outline) → (frames : List Frame) → (rest : List Token) →
    readFrom frames .value (valueTokens x ++ rest) = resume (settle (ofOutline x) frames) rest
  | .text s, frames, rest => readFrom_cons ..
  | .records rs, frames, rest => by
    rw [valueTokens, ofOutline, List.append_assoc, List.cons_append, readFrom_cons,
      List.singleton_append]
    by_cases hne : rs = []
    · subst hne
      exact readFrom_cons ..
    · have hitems := readFrom_records rs hne frames [] rest
      rw [List.reverse_nil, List.nil_append] at hitems
      exact (readFrom_firstItem hne _).trans hitems

theorem readFrom_records : (rs : List Outline.Fields) → rs ≠ [] → (frames : List Frame) →
    (before : List Document) → (rest : List Token) →
    readFrom (.list before :: frames) .value (recordsTokens rs ++ .closeBracket :: rest) =
      resume (settle (.list (before.reverse ++ ofRecords rs)) frames) rest
  | [], hne, _, _, _ => absurd rfl hne
  | [r], _, frames, before, rest => by
    have hrecord := readFrom_record r (.list before :: frames) (.closeBracket :: rest)
    rw [recordsTokens, List.append_assoc, List.cons_append, List.singleton_append, hrecord,
      resume_item_close, List.reverse_cons, ofRecords, ofRecords]
  | r :: r' :: rs, _, frames, before, rest => by
    have hrecord := readFrom_record r (.list before :: frames)
      (.comma :: (recordsTokens (r' :: rs) ++ .closeBracket :: rest))
    have hitems := readFrom_records (r' :: rs) (List.cons_ne_nil _ _) frames
      (.object (ofFields r) :: before) rest
    rw [List.reverse_cons, List.append_assoc, List.singleton_append] at hitems
    rw [recordsTokens, List.append_assoc, List.cons_append, List.cons_append, List.cons_append,
      hrecord, resume_item_comma, hitems]
    rfl

theorem readFrom_record : (r : Outline.Fields) → (frames : List Frame) → (rest : List Token) →
    readFrom frames .value (.openBrace :: (fieldsTokens r ++ .closeBrace :: rest)) =
      resume (settle (.object (ofFields r)) frames) rest
  | r, frames, rest => by
    rw [readFrom_cons]
    by_cases hne : r = []
    · subst hne
      exact readFrom_cons ..
    · have hfields := readFrom_fields r hne frames [] rest
      rw [List.reverse_nil, List.nil_append] at hfields
      exact (readFrom_firstKey hne _).trans hfields

theorem readFrom_fields : (fs : Outline.Fields) → fs ≠ [] → (frames : List Frame) →
    (before : List (Document × Document)) → (rest : List Token) →
    readFrom frames (.nextKey before) (fieldsTokens fs ++ .closeBrace :: rest) =
      resume (settle (.object (before.reverse ++ ofFields fs)) frames) rest
  | [], hne, _, _, _ => absurd rfl hne
  | [f], _, frames, before, rest => by
    rw [fieldsTokens, readFrom_field f frames before, readFrom_field_close, List.reverse_cons,
      ofFields, ofFields]
  | f :: f' :: fs, _, frames, before, rest => by
    have hfields := readFrom_fields (f' :: fs) (List.cons_ne_nil _ _) frames (ofField f :: before)
      rest
    rw [List.reverse_cons, List.append_assoc, List.singleton_append] at hfields
    rw [fieldsTokens, List.append_assoc, readFrom_field f frames before, List.cons_append,
      readFrom_field_comma, hfields]
    rfl

theorem readFrom_field : (f : String × Outline) → (frames : List Frame) →
    (before : List (Document × Document)) → (rest : List Token) →
    readFrom frames (.nextKey before) (fieldTokens f ++ rest) =
      readFrom frames (.afterField (ofField f :: before)) rest
  | (name, x), frames, before, rest => by
    have hvalue := readFrom_value x (.object before (.text name.toList) :: frames) rest
    rw [fieldTokens, List.cons_append, List.cons_append, readFrom_cons]
    exact (readFrom_cons (.colon before (.text name.toList)) .colon _).trans hvalue

end

/-- A printed record is read as its document, and nothing behind it is touched. -/
theorem ofTokens_print (fields : Outline.Fields) (rest : List Char) :
    ofTokens (tokens (print fields ++ rest)) =
      (.object (ofFields fields), tokensFrom .between rest) := by
  rw [ofTokens, tokens, tokens_print, List.cons_append, readFrom_record]
  rfl

end Document
end Json
end RefManifest
