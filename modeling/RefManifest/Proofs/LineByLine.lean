import RefManifest.Proofs.Extraction
import RefManifest.Proofs.Text.Line
import RefManifest.Proofs.Text.Utf8

/-!
# RefManifest.Proofs.LineByLine

What is extracted from a file is put together from its lines.

A line is looked at without the blanks around it, so the directives of a text are those of its bare
lines (`lineDirectives_eq_bareLines`), and the layout of the text has no say (`extract_respelled`).

A file is read as text before that. No octet is taken over a line feed, so this too goes line by
line (`lineDirectives_ofFile`), and octets that are not well formed are the affair of the line they
stand in. What two files have to say that are joined with a line feed is what they say one by one,
`combine`d (`directives_joined`).
-/

namespace RefManifest

open Text

theorem Directive.parseLine_trim (line : List Char) : parseLine (trim line) = parseLine line := by
  simp only [parseLine, commentBody?, trim_trim]

namespace Directives

variable {s t : List Char}

theorem lineDirectives_eq_bareLines (s : List Char) :
    lineDirectives s = (bareLines s).filterMap Directive.parseLine :=
  filterMap_lines Directive.parseLine_trim (by decide) s

/-- The layout of a text has no say in what is extracted from it, nor in the warnings. -/
theorem extract_respelled (path : Path) (h : Respelled s t) : extract path s = extract path t := by
  rw [extract, extract, lineDirectives_eq_bareLines, lineDirectives_eq_bareLines, h.bareLines_eq]

/-- Two names and an empty line between them, with line feeds alone. -/
def plainText : List Char :=
  "# cluster-compare-part: core\n\n\x7b\x7b/* cluster-compare-part: edge */\x7d\x7d".toList

/-- The same with other line ends, indented, and with blanks behind the comments. -/
def respelledText : List Char :=
  "\t# cluster-compare-part: core\u2003\r\n\r\n".toList ++
    "\u00A0 \x7b\x7b/* cluster-compare-part: edge */\x7d\x7d\u2028".toList

theorem extract_respelled_names :
    Respelled plainText respelledText ∧
      extract (Path.ofString "a.yaml") plainText = extract (Path.ofString "a.yaml") respelledText :=
  have h : Respelled plainText respelledText := respelled_iff.2 (by decide)
  ⟨h, extract_respelled _ h⟩

theorem splitOn_decodeLossy (x : Octets) :
    (Utf8.decodeLossy x).splitOn '\n' = (x.splitOn 0x0A).map Utf8.decodeLossy := by
  induction x using pieceInduction (0x0A : UInt8) with
  | last l hl =>
    have hread : '\n' ∉ Utf8.decodeLossy l := not_mem_decodeLossy (by decide) hl
    rw [List.splitOn_eq_singleton hl, List.splitOn_eq_singleton hread, List.map_singleton]
  | more l rest hl ih =>
    have hread : '\n' ∉ Utf8.decodeLossy l := not_mem_decodeLossy (by decide) hl
    have hjoined : Utf8.decodeLossy (l ++ 0x0A :: rest) =
        Utf8.decodeLossy l ++ '\n' :: Utf8.decodeLossy rest := decodeLossy_ascii (by decide) l rest
    rw [hjoined, List.splitOn_append_cons_self_of_not_mem hl,
      List.splitOn_append_cons_self_of_not_mem hread, ih, List.map_cons]

theorem toList_ofFile (x : Octets) : (ofFile x).toList = Utf8.decodeLossy x := by
  rw [ofFile_eq_ofOctets, ofOctets, String.toList_ofList]

/-- The directive of a line depends on the octets of that line alone. -/
theorem lineDirectives_ofFile (x : Octets) :
    lineDirectives (ofFile x).toList =
      (x.splitOn 0x0A).filterMap fun line => Directive.parseLine (Utf8.decodeLossy line) := by
  rw [toList_ofFile, lineDirectives_eq_bareLines, bareLines, splitOn_decodeLossy, List.map_map,
    List.filterMap_map]
  exact List.filterMap_congr fun line _ => Directive.parseLine_trim _

/-- What two stretches of a template have to say together, the second one behind the first. -/
def combine (d e : Directives) : Directives where
  part := d.part.or e.part
  component := d.component.or e.component
  componentRequired := d.componentRequired || e.componentRequired
  componentOptional := d.componentOptional || e.componentOptional
  lastComponentRequirement := e.lastComponentRequirement.or d.lastComponentRequirement
  templateRequirement := Requirement.merge d.templateRequirement e.templateRequirement

theorem slot_append (axis : NameAxis) (path path₁ path₂ : String) (xs ys : List Directive) :
    (applyAll path {} (xs ++ ys)).1.slot axis =
      ((applyAll path₁ {} xs).1.slot axis).or ((applyAll path₂ {} ys).1.slot axis) := by
  simp only [slot_eq_firstName, firstName, List.findSome?_append]

theorem declares_append (q : Requirement) (path path₁ path₂ : String) (xs ys : List Directive) :
    (applyAll path {} (xs ++ ys)).1.declares q =
      ((applyAll path₁ {} xs).1.declares q || (applyAll path₂ {} ys).1.declares q) := by
  have hempty : declares q {} = false := by cases q <;> rfl
  simp only [declares_applyAll, hempty, Bool.false_or, List.filterMap_append, List.mem_append,
    Bool.decide_or]

theorem last_append (path path₁ path₂ : String) (xs ys : List Directive) :
    (applyAll path {} (xs ++ ys)).1.lastComponentRequirement =
      (applyAll path₂ {} ys).1.lastComponentRequirement.or
        (applyAll path₁ {} xs).1.lastComponentRequirement := by
  simp only [last_applyAll, Option.or_none, List.filterMap_append, List.getLast?_append]

theorem templateRequirement_append (path path₁ path₂ : String) (xs ys : List Directive) :
    (applyAll path {} (xs ++ ys)).1.templateRequirement =
      Requirement.merge (applyAll path₁ {} xs).1.templateRequirement
        (applyAll path₂ {} ys).1.templateRequirement := by
  simp only [templateRequirement_eq_marking, marking_append]

/-- Directives that follow each other, wherever they were read. -/
theorem applyAll_append (path path₁ path₂ : String) (xs ys : List Directive) :
    (applyAll path {} (xs ++ ys)).1 =
      (applyAll path₁ {} xs).1.combine (applyAll path₂ {} ys).1 := by
  have hpart := slot_append .part path path₁ path₂ xs ys
  have hcomponent := slot_append .component path path₁ path₂ xs ys
  have hrequired := declares_append .required path path₁ path₂ xs ys
  have hoptional := declares_append .optional path path₁ path₂ xs ys
  simp only [slot, declares] at hpart hcomponent hrequired hoptional
  rw [combine, ← hpart, ← hcomponent, ← hrequired, ← hoptional,
    ← last_append path path₁ path₂ xs ys, ← templateRequirement_append path path₁ path₂ xs ys]

theorem lineDirectives_joined (a b : Octets) :
    lineDirectives (ofFile (a ++ 0x0A :: b)).toList =
      lineDirectives (ofFile a).toList ++ lineDirectives (ofFile b).toList := by
  simp only [lineDirectives_ofFile, List.splitOn_append_cons_self, List.filterMap_append]

/-- Files that are joined with a line feed say what they say one by one. A file is read line by
line, whether all of it is well formed or not: a line feed is read as itself and parts what is
before it from what is behind it, and what is well formed is read as what is not would be. So the
directive of a line depends on the octets of that line alone, and whatever stands in one stretch of
lines, those before it and behind it say what they say by themselves. -/
theorem directives_joined :
    (∀ (path path₁ path₂ : Path) (a b : Octets),
      (extract path (ofFile (a ++ 0x0A :: b)).toList).1 =
        (extract path₁ (ofFile a).toList).1.combine (extract path₂ (ofFile b).toList).1) ∧
    (∀ a b, Utf8.decodeLossy (a ++ 0x0A :: b) =
      Utf8.decodeLossy a ++ '\n' :: Utf8.decodeLossy b) ∧
    (∀ x, ofFile x = ofOctets x) ∧
    (∀ x, lineDirectives (ofFile x).toList =
      (x.splitOn 0x0A).filterMap fun line => Directive.parseLine (Utf8.decodeLossy line)) ∧
    ∀ front line back, lineDirectives (ofFile (front ++ 0x0A :: (line ++ 0x0A :: back))).toList =
      lineDirectives (ofFile front).toList ++
        (lineDirectives (ofFile line).toList ++ lineDirectives (ofFile back).toList) := by
  refine ⟨fun path path₁ path₂ a b => ?_, decodeLossy_ascii (by decide), ofFile_eq_ofOctets,
    lineDirectives_ofFile, fun front line back => ?_⟩
  · rw [extract, extract, extract, lineDirectives_joined]
    exact applyAll_append ..
  · rw [lineDirectives_joined, lineDirectives_joined]

/-- A character that the end of a line cuts off takes nothing of the next line. -/
example :
    lineDirectives (ofFile ([0xE2, 0x82, 0x0A] ++ toOctets "# cluster-compare-optional")).toList =
      [.templateRequirement .optional] := by
  decide

end Directives
end RefManifest
