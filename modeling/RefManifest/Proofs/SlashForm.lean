import RefManifest.Proofs.Parent
import RefManifest.Proofs.Text.Line
import RefManifest.Proofs.Text.Utf8

/-!
# RefManifest.Proofs.SlashForm

The slash form of a path is a normal form.

It is the components as text with slashes between them. Read as a path again it has the components
that it was made of, but for the names that were mended on the way (`components_ofString_toSlash`):
no text of a component holds a slash, so splitting undoes joining, and mending makes no empty name
and no dots. The root is the exception, being a slash itself; the two slashes that it starts an
absolute path with are read as one root.

So the slash form of a slash form is itself, and where nothing has to be mended it tells paths apart
by their components (`toSlash_normal`).
-/

namespace RefManifest
namespace Path

open Text

/-- The octets that the text of a component is written with. -/
def Component.written (c : Component) : Octets := Utf8.encode c.text

/-- The component that is read in the slash form: what is not well formed in a name has been
replaced. -/
def Component.mended : Component → Component
  | .name n => .name (Utf8.encode (Utf8.decodeLossy n))
  | c => c

theorem Component.text_mended (c : Component) : c.mended.text = c.text := by
  cases c with
  | name n => exact Utf8.decodeLossy_of_decode? (Utf8.decode?_encode _)
  | _ => rfl

variable {x o : Octets} {c : Component} {p q : Path} {ps : List Octets}

theorem slash_not_mem_written (h : ofPiece x = some c) (hx : slash ∉ x) : slash ∉ c.written := by
  refine not_mem_encode (by decide) ?_
  rcases ofPiece_cases h with ⟨-, rfl⟩ | ⟨rfl, -⟩
  · decide
  · exact slash_not_mem_decodeLossy hx

/-- What reads the same as a text without replacement marks was that text. -/
theorem eq_of_mended {t : List Char} (hmark : '\uFFFD' ∉ t)
    (h : Utf8.encode (Utf8.decodeLossy x) = Utf8.encode t) : x = Utf8.encode t := by
  have hread := congrArg Utf8.decodeLossy h
  rw [Utf8.decodeLossy_of_decode? (Utf8.decode?_encode _),
    Utf8.decodeLossy_of_decode? (Utf8.decode?_encode _)] at hread
  exact Utf8.eq_encode_of_decodeLossy hread hmark

theorem ofPiece_written (h : ofPiece x = some c) : ofPiece c.written = some c.mended := by
  rcases ofPiece_cases h with ⟨-, rfl⟩ | ⟨rfl, hempty, hdot, hup⟩
  · decide
  · -- Mending makes none of the pieces that are no names out of another one.
    have hstand : ¬ ((Component.name x).written = [] ∨ (Component.name x).written = [dot]) := by
      rintro (hread | hread)
      · exact hempty (eq_of_mended (t := []) (by decide) hread)
      · exact hdot (eq_of_mended (t := ['.']) (by decide) hread)
    have hname : (Component.name x).written ≠ [dot, dot] := by
      intro hread
      exact hup (eq_of_mended (t := ['.', '.']) (by decide) hread)
    rw [ofPiece, if_neg hstand, if_neg hname]
    rfl

theorem filterMap_written (ps : List Octets) :
    ((ps.filterMap ofPiece).map Component.written).filterMap ofPiece =
      (ps.filterMap ofPiece).map Component.mended := by
  induction ps with
  | nil => rfl
  | cons x ps ih =>
    cases h : ofPiece x with
    | none => simpa [h] using ih
    | some c => simpa [h, ofPiece_written h] using ih

theorem encode_intercalate (texts : List (List Char)) :
    Utf8.encode (List.intercalate ['/'] texts) = joinNames (texts.map Utf8.encode) := by
  induction texts with
  | nil => rfl
  | cons t rest ih =>
    cases rest with
    | nil => simp [joinNames]
    | cons u rest =>
      have hslash : Utf8.encode ['/'] = [slash] := by decide
      rw [List.intercalate_cons_of_ne_nil (by simp), Utf8.encode_append, Utf8.encode_append, ih,
        hslash, List.append_assoc]
      rfl

theorem ofString_toSlash (p : Path) :
    ofString p.toSlash = ofNames (p.components.map Component.written) := by
  rw [ofString, toOctets, toSlash, String.toList_ofList, slashed, encode_intercalate, List.map_map]
  rfl

section Joined

variable (h : ∀ x ∈ ps, slash ∉ x)
include h

theorem components_ofNames_root :
    (ofNames ([slash] :: ps)).components = .root :: ps.filterMap ofPiece := by
  cases ps with
  | nil => decide
  | cons x ps =>
    have hoctets : joinNames ([slash] :: x :: ps) = slash :: slash :: joinNames (x :: ps) := rfl
    rw [ofNames, hoctets, components, spans_slash, pieces_slash,
      pieces_joinNames (List.cons_ne_nil x ps) h, List.map_cons, map_fst_spansFrom]
    rfl

theorem components_ofNames_here :
    (ofNames ([dot] :: ps)).components = .here :: ps.filterMap ofPiece := by
  cases ps with
  | nil => decide
  | cons x ps =>
    have hoctets : joinNames ([dot] :: x :: ps) = dot :: slash :: joinNames (x :: ps) := rfl
    rw [ofNames, hoctets, components, spans_dot_slash,
      pieces_joinNames (List.cons_ne_nil x ps) h, List.map_cons, map_fst_spansFrom]

end Joined

/-- The path that the slash form spells has the components of the path, mended. -/
theorem components_ofString_toSlash (p : Path) :
    (ofString p.toSlash).components = p.components.map Component.mended := by
  have hpieces : ∀ x ∈ ((pieces p.octets).filterMap ofPiece).map Component.written,
      slash ∉ x ∧ ofPiece x ≠ none := by
    intro x hx
    obtain ⟨c, hc, rfl⟩ := List.mem_map.1 hx
    obtain ⟨y, hy, hyc⟩ := List.mem_filterMap.1 hc
    refine ⟨slash_not_mem_written hyc (slash_not_mem_piece hy), ?_⟩
    simp [ofPiece_written hyc]
  have hslash := fun x hx => (hpieces x hx).1
  rw [ofString_toSlash, components_eq p, List.map_append, List.map_append, ← filterMap_written]
  rcases p.opening_cases with hroot | hhere | hnone
  · rw [hroot]
    exact components_ofNames_root hslash
  · rw [hhere]
    exact components_ofNames_here hslash
  · rw [hnone]
    exact components_ofNames_plain hslash fun x hx => (hpieces x hx).2

/-- Every name of the path is well-formed text. -/
def WellFormed (p : Path) : Prop := ∀ n, Component.name n ∈ p.components → Utf8.decode? n ≠ none

theorem mended_of_wellFormed (h : p.WellFormed) :
    p.components.map Component.mended = p.components := by
  refine (List.map_congr_left ?_).trans (List.map_id _)
  intro c hc
  cases c with
  | name n => exact congrArg Component.name (Utf8.encode_decodeLossy (h n hc))
  | _ => rfl

/-- The pieces of what is well formed are well formed. -/
theorem exists_encode_of_mem_pieces {s : List Char} (hs : o = Utf8.encode s) (hx : x ∈ pieces o) :
    ∃ t, x = Utf8.encode t := by
  induction o using pieceInduction slash generalizing s with
  | last o ho =>
    rw [pieces_of_slash_not_mem ho, List.mem_singleton] at hx
    exact ⟨s, hx.trans hs⟩
  | more y rest hy ih =>
    obtain ⟨hfront, u, hu⟩ := encode_eq_append (by decide) hs.symm
    rw [pieces_append_slash hy] at hx
    rcases List.mem_cons.1 hx with rfl | hx
    · exact hfront
    · exact ih hu hx

theorem wellFormed_ofString (s : String) : (ofString s).WellFormed := by
  intro n hn
  rw [components_eq, List.mem_append] at hn
  rcases hn with hn | hn
  · rcases (ofString s).opening_cases with h | h | h <;> simp [h] at hn
  · obtain ⟨x, hx, hxn⟩ := List.mem_filterMap.1 hn
    obtain ⟨t, rfl⟩ := exists_encode_of_mem_pieces rfl hx
    rcases ofPiece_cases hxn with ⟨-, hup⟩ | ⟨hname, -⟩
    · cases hup
    · cases hname
      simp [Utf8.decode?_encode]

/-! ## The normal form -/

/-- The slash form is a normal form, whether a path is absolute or not: taking it twice is taking it
once, whatever the octets, and paths of well-formed names have the same slash form exactly if they
have the same components. -/
theorem toSlash_normal :
    (∀ p : Path, (ofString p.toSlash).toSlash = p.toSlash) ∧
    ∀ p q : Path, p.WellFormed → q.WellFormed →
      (p.toSlash = q.toSlash ↔ p.components = q.components) := by
  constructor
  · intro p
    rw [toSlash, slashed, components_ofString_toSlash, List.map_map,
      List.map_congr_left fun c _ => c.text_mended]
    rfl
  · intro p q hp hq
    constructor
    · intro hsame
      rw [← mended_of_wellFormed hp, ← mended_of_wellFormed hq, ← components_ofString_toSlash,
        ← components_ofString_toSlash, hsame]
    · intro hsame
      rw [toSlash, toSlash, slashed, slashed, hsame]

/-- An absolute path with a name that is not well formed. -/
example : toSlash ⟨[0x2F, 0x61, 0x2F, 0x2E, 0x2F, 0xFF]⟩ = "//a/\uFFFD" ∧
    (ofString "//a/\uFFFD").toSlash = "//a/\uFFFD" := by
  decide

/-- Three spellings as text. The third does not start with a dot, which is a component. -/
theorem toSlash_normal_spellings :
    (ofString "./core//dns/../é/").WellFormed ∧ (ofString "./core/./dns/../é").WellFormed ∧
    (ofString "core/dns/../é").WellFormed ∧
    (ofString "./core//dns/../é/").toSlash = (ofString "./core/./dns/../é").toSlash ∧
    (ofString "./core//dns/../é/").toSlash ≠ (ofString "core/dns/../é").toSlash := by
  have hfirst := wellFormed_ofString "./core//dns/../é/"
  have hsecond := wellFormed_ofString "./core/./dns/../é"
  have hthird := wellFormed_ofString "core/dns/../é"
  refine ⟨hfirst, hsecond, hthird, (toSlash_normal.2 _ _ hfirst hsecond).2 (by decide), ?_⟩
  intro hsame
  have hcomponents := (toSlash_normal.2 _ _ hfirst hthird).1 hsame
  revert hcomponents
  decide

end Path
end RefManifest
