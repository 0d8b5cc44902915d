import RefManifest.Proofs.Hierarchy.Growth
import RefManifest.Render

/-!
# RefManifest.Proofs.Render

How long the text of a manifest is, in either format.

Both printers put members one after the other with something of a fixed length between them, so
the length of a printed list is a sum over its members, and a gauge measures the text of a
manifest (`Yaml.length_print`, `Json.length_print`). The text of fewer records is shorter in both
formats (`length_rendered_lt`), so two manifests of which one lists more templates never have the
same text.
-/

namespace RefManifest

open Hierarchy

theorem sum_map_pos {α : Type} {f : α → Nat} {x : α} (xs : List α) (h : 0 < f x) :
    0 < ((x :: xs).map f).sum := by
  rw [List.map_cons, List.sum_cons]
  omega

theorem sum_templatesOutline (γ : Gauge) {f : String × Outline → Nat} {name : String}
    (w : Outline.Fields → Nat) (hw : ∀ t, w (templateOutline t) = γ.template t)
    (hf : ∀ r rs, f (name, .records (r :: rs)) = γ.aroundTemplates + ((r :: rs).map w).sum)
    (ids : List String) : ((templatesOutline name ids).map f).sum = γ.ofTemplates ids := by
  cases ids with
  | nil => rfl
  | cons t ids =>
    have hpos : 0 < ((t :: ids).map γ.template).sum := by
      have := γ.two_le_template t
      exact sum_map_pos ids (by omega)
    have hsum : (((t :: ids).map templateOutline).map w).sum = ((t :: ids).map γ.template).sum := by
      rw [List.map_map]
      exact congrArg List.sum (List.map_congr_left fun t _ => hw t)
    have hfield : templatesOutline name (t :: ids) =
        [(name, .records ((t :: ids).map templateOutline))] := rfl
    rw [Gauge.ofTemplates, listLength_of_pos hpos, hfield, List.map_singleton, List.sum_singleton,
      List.map_cons, hf, ← List.map_cons, hsum]

namespace Yaml

variable (indent : Nat)

theorem length_spaces : (spaces indent).length = indent := List.length_replicate ..

theorem length_printRecord (f : String × Outline) (fs : Outline.Fields) :
    (printRecord indent (f :: fs)).length + indent =
      ((f :: fs).map fun g => (printField indent g).length + indent).sum := by
  induction fs generalizing f with
  | nil => simp [printRecord]
  | cons g fs ih =>
    have := ih g
    simp only [printRecord, List.length_append, length_spaces, List.map_cons, List.sum_cons]
      at this ⊢
    omega

theorem length_printRecords (rs : List Outline.Fields) :
    (printRecords indent rs).length =
      (rs.map fun r => indent + 2 + (printRecord (indent + 2) r).length).sum := by
  induction rs with
  | nil => rfl
  | cons r rs ih =>
    simp only [printRecords, List.length_append, List.length_cons, length_spaces, ih,
      List.map_cons, List.sum_cons]
    omega

theorem length_printValue_records (rs : List Outline.Fields) :
    (printValue indent (.records rs)).length =
      listLength 4 1 (rs.map fun r => indent + 2 + (printRecord (indent + 2) r).length).sum := by
  cases rs with
  | nil => rfl
  | cons r rs =>
    rw [listLength_of_pos (sum_map_pos rs (by omega)), printValue, List.length_cons,
      length_printRecords]
    omega

theorem length_printField (name : String) (x : Outline) :
    (printField indent (name, x)).length =
      name.toList.length + 1 + (printValue indent x).length := by
  simp only [printField, List.length_append, List.length_cons]
  omega

theorem length_statusField (r : Requirement) :
    (printField indent ("type", .text r.label.toList)).length = 15 := by
  cases r <;> rfl

def gauge : Gauge where
  head := (printField 0 ("apiVersion", .text Manifest.version.toList)).length + 6
  part p := (printField 2 ("name", .text p.toList)).length + 15
  component c := (printField 4 ("name", .text c.toList)).length + 23
  template t := 6 + (printRecord 6 (templateOutline t)).length
  empty := 4
  aroundParts := 1
  aroundComponents := 1
  aroundTemplates := 23
  five_le_part := by intro p; omega
  five_le_component := by intro c; omega
  two_le_template := by intro t; omega
  empty_lt_parts := by omega
  empty_lt_components := by omega

theorem length_templates {name : String} (hname : name.toList.length = 17) (ids : List String) :
    ((templatesOutline name ids).map fun g => (printField 4 g).length + 4).sum =
      gauge.ofTemplates ids := by
  refine sum_templatesOutline gauge (fun r => 4 + 2 + (printRecord (4 + 2) r).length)
    (fun t => rfl) (fun r rs => ?_) ids
  rw [length_printField, hname, length_printValue_records,
    listLength_of_pos (sum_map_pos rs (by omega))]
  simp only [gauge]
  omega

theorem length_component (c : Component) :
    4 + (printRecord 4 c.outline).length = gauge.ofComponent c := by
  have hlength := length_printRecord 4 ("name", .text c.name.toList)
    (("type", .text c.requirement.label.toList) ::
      (templatesOutline "requiredTemplates" c.requiredTemplates ++
        templatesOutline "optionalTemplates" c.optionalTemplates))
  have hrequired : ("requiredTemplates" : String).toList.length = 17 := rfl
  have hoptional : ("optionalTemplates" : String).toList.length = 17 := rfl
  simp only [List.map_cons, List.map_append, List.sum_cons, List.sum_append, length_statusField,
    length_templates hrequired, length_templates hoptional] at hlength
  simp only [Component.outline, List.cons_append, List.nil_append, Gauge.ofComponent, gauge]
    at hlength ⊢
  omega

theorem length_part (p : Part) : 2 + (printRecord 2 p.outline).length = gauge.ofPart p := by
  have hlength := length_printRecord 2 ("name", .text p.name.toList)
    [("components", .records (p.components.map Component.outline))]
  have hname : ("components" : String).toList.length = 10 := rfl
  have hsum : ((p.components.map Component.outline).map fun r =>
      2 + 2 + (printRecord (2 + 2) r).length).sum = (p.components.map gauge.ofComponent).sum := by
    rw [List.map_map]
    exact congrArg List.sum (List.map_congr_left fun c _ => length_component c)
  simp only [List.map_cons, List.map_nil, List.sum_cons, List.sum_nil, length_printField,
    length_printValue_records, hsum, hname] at hlength
  simp only [Part.outline, Gauge.ofPart, gauge, length_printField] at hlength ⊢
  omega

theorem length_print (ps : List Part) :
    (print (Manifest.ofParts ps).outline).length = gauge.ofManifest (Manifest.ofParts ps) := by
  have hlength := length_printRecord 0 ("apiVersion", .text Manifest.version.toList)
    [("parts", .records (ps.map Part.outline))]
  have hname : ("parts" : String).toList.length = 5 := rfl
  have hsum : ((ps.map Part.outline).map fun r =>
      0 + 2 + (printRecord (0 + 2) r).length).sum = (ps.map gauge.ofPart).sum := by
    rw [List.map_map]
    refine congrArg List.sum (List.map_congr_left fun p _ => ?_)
    rw [Function.comp_apply, Nat.zero_add, length_part]
  simp only [List.map_cons, List.map_nil, List.sum_cons, List.sum_nil, length_printField,
    length_printValue_records, hsum, hname] at hlength
  simp only [print, Manifest.outline, Manifest.ofParts, Gauge.ofManifest, gauge,
    length_printField] at hlength ⊢
  omega

end Yaml

namespace Json

variable (level : Nat)

theorem length_newLine : (newLine level).length = 1 + 2 * level := by
  simp [newLine, Nat.add_comm]

theorem length_enclose (opening closing : Char) {s : List Char} (hs : s ≠ []) :
    (enclose opening closing level s).length = s.length + 4 * level + 6 := by
  obtain ⟨c, cs, rfl⟩ := List.exists_cons_of_ne_nil hs
  simp only [enclose, List.length_append, List.length_cons, length_newLine, List.length_nil]
  omega

theorem printFields_ne_nil (f : String × Outline) (fs : Outline.Fields) :
    printFields level (f :: fs) ≠ [] := by
  obtain ⟨name, x⟩ := f
  cases fs <;> simp [printFields, printField, printText]

theorem length_printFields (f : String × Outline) (fs : Outline.Fields) :
    (printFields level (f :: fs)).length + (2 * level + 2) =
      ((f :: fs).map fun g => (printField level g).length + (2 * level + 2)).sum := by
  induction fs generalizing f with
  | nil => simp [printFields]
  | cons g fs ih =>
    have := ih g
    simp only [printFields, List.length_append, List.length_cons, length_newLine, List.map_cons,
      List.sum_cons] at this ⊢
    omega

/-- The length of a record at the level, with its braces. -/
def recordLength (r : Outline.Fields) : Nat :=
  (enclose '\x7b' '\x7d' level (printFields (level + 1) r)).length

theorem recordLength_eq (f : String × Outline) (fs : Outline.Fields) :
    recordLength level (f :: fs) =
      2 * level + 2 +
        ((f :: fs).map fun g => (printField (level + 1) g).length + (2 * (level + 1) + 2)).sum := by
  have := length_printFields (level + 1) f fs
  rw [recordLength, length_enclose level _ _ (printFields_ne_nil _ f fs)]
  omega

theorem printRecords_ne_nil (r : Outline.Fields) (rs : List Outline.Fields) :
    printRecords level (r :: rs) ≠ [] := by
  cases rs <;> cases h : printFields (level + 1) r <;> simp [printRecords, enclose, h]

theorem length_printRecords (r : Outline.Fields) (rs : List Outline.Fields) :
    (printRecords level (r :: rs)).length + (2 * level + 2) =
      ((r :: rs).map fun q => recordLength level q + (2 * level + 2)).sum := by
  induction rs generalizing r with
  | nil => simp [printRecords, recordLength]
  | cons q rs ih =>
    have := ih q
    simp only [printRecords, recordLength, List.length_append, List.length_cons, length_newLine,
      List.map_cons, List.sum_cons] at this ⊢
    omega

theorem length_printValue_records (rs : List Outline.Fields) :
    (printValue level (.records rs)).length =
      listLength 2 (2 * level + 2)
        (rs.map fun q => recordLength (level + 1) q + (2 * (level + 1) + 2)).sum := by
  cases rs with
  | nil => rfl
  | cons r rs =>
    have := length_printRecords (level + 1) r rs
    rw [listLength_of_pos (sum_map_pos rs (by omega)), printValue,
      length_enclose level _ _ (printRecords_ne_nil _ r rs)]
    omega

theorem length_printField (name : String) (x : Outline) :
    (printField level (name, x)).length =
      (printText name.toList).length + 2 + (printValue level x).length := by
  simp only [printField, List.length_append, List.length_cons]
  omega

theorem length_statusField (r : Requirement) :
    (printField level ("type", .text r.label.toList)).length = 18 := by
  cases r <;> rfl

def gauge : Gauge where
  head := (printField 1 ("apiVersion", .text Manifest.version.toList)).length + 19
  part p := (printField 3 ("name", .text p.toList)).length + 42
  component c := (printField 5 ("name", .text c.toList)).length + 62
  template t := recordLength 6 (templateOutline t) + 14
  empty := 2
  aroundParts := 4
  aroundComponents := 8
  aroundTemplates := 45
  five_le_part := by intro p; omega
  five_le_component := by intro c; omega
  two_le_template := by intro t; omega
  empty_lt_parts := by omega
  empty_lt_components := by omega

theorem length_templates {name : String} (hname : (printText name.toList).length = 19)
    (ids : List String) :
    ((templatesOutline name ids).map fun g => (printField 5 g).length + 12).sum =
      gauge.ofTemplates ids := by
  refine sum_templatesOutline gauge (fun r => recordLength (5 + 1) r + (2 * (5 + 1) + 2))
    (fun t => rfl) (fun r rs => ?_) ids
  rw [length_printField, hname, length_printValue_records,
    listLength_of_pos (sum_map_pos rs (by omega))]
  simp only [gauge]
  omega

theorem length_component (c : Component) :
    recordLength 4 c.outline + 10 = gauge.ofComponent c := by
  have hlength := recordLength_eq 4 ("name", .text c.name.toList)
    (("type", .text c.requirement.label.toList) ::
      (templatesOutline "requiredTemplates" c.requiredTemplates ++
        templatesOutline "optionalTemplates" c.optionalTemplates))
  have hrequired : (printText ("requiredTemplates" : String).toList).length = 19 := rfl
  have hoptional : (printText ("optionalTemplates" : String).toList).length = 19 := rfl
  simp only [List.map_cons, List.map_append, List.sum_cons, List.sum_append, length_statusField,
    Nat.reduceAdd, Nat.reduceMul, length_templates hrequired, length_templates hoptional] at hlength
  simp only [Component.outline, List.cons_append, List.nil_append, Gauge.ofComponent, gauge]
    at hlength ⊢
  omega

theorem length_part (p : Part) : recordLength 2 p.outline + 6 = gauge.ofPart p := by
  have hlength := recordLength_eq 2 ("name", .text p.name.toList)
    [("components", .records (p.components.map Component.outline))]
  have hname : (printText ("components" : String).toList).length = 12 := rfl
  have hsum : ((p.components.map Component.outline).map fun q => recordLength 4 q + 10).sum =
      (p.components.map gauge.ofComponent).sum := by
    rw [List.map_map]
    exact congrArg List.sum (List.map_congr_left fun c _ => length_component c)
  simp only [List.map_cons, List.map_nil, List.sum_cons, List.sum_nil, length_printField,
    Nat.reduceAdd, Nat.reduceMul, length_printValue_records, hsum, hname] at hlength
  simp only [Part.outline, Gauge.ofPart, gauge, length_printField] at hlength ⊢
  omega

/-- The gauge measures the text. -/
theorem length_print (ps : List Part) :
    (print (Manifest.ofParts ps).outline).length = gauge.ofManifest (Manifest.ofParts ps) := by
  have hlength := recordLength_eq 0 ("apiVersion", .text Manifest.version.toList)
    [("parts", .records (ps.map Part.outline))]
  have hname : (printText ("parts" : String).toList).length = 7 := rfl
  have hsum : ((ps.map Part.outline).map fun q => recordLength 2 q + 6).sum =
      (ps.map gauge.ofPart).sum := by
    rw [List.map_map]
    exact congrArg List.sum (List.map_congr_left fun p _ => length_part p)
  have hprint : (print (Manifest.ofParts ps).outline).length =
      recordLength 0 (Manifest.ofParts ps).outline := rfl
  simp only [List.map_cons, List.map_nil, List.sum_cons, List.sum_nil, length_printField,
    Nat.reduceAdd, Nat.reduceMul, length_printValue_records, hsum, hname] at hlength
  rw [hprint]
  simp only [Manifest.outline, Manifest.ofParts, Gauge.ofManifest, gauge, length_printField]
    at hlength ⊢
  omega

end Json

theorem length_withLineFeed (s : List Char) :
    s.length ≤ (withLineFeed s).length ∧ (withLineFeed s).length ≤ s.length + 1 := by
  unfold withLineFeed
  split
  · omega
  · rw [List.length_append, List.length_singleton]
    omega

/-- A format whose gauge measures its text writes fewer records in a shorter text. -/
theorem length_printed_lt (γ : Gauge) {print : Outline.Fields → List Char}
    (hprint : ∀ ps, (print (Manifest.ofParts ps).outline).length =
      γ.ofManifest (Manifest.ofParts ps))
    (strict : Bool) {rs rs' : List Record} (h : rs'.Sublist rs) (hlen : rs'.length < rs.length) :
    (withLineFeed (print (feed strict rs').finish.outline)).length <
      (withLineFeed (print (feed strict rs).finish.outline)).length := by
  have hgauge := γ.lt_of_sublist strict h hlen
  have hfew := length_withLineFeed (print (feed strict rs').finish.outline)
  have hall := length_withLineFeed (print (feed strict rs).finish.outline)
  rw [finish_feed, hprint] at hfew hall
  rw [finish_feed, finish_feed] at hgauge ⊢
  omega

/-- Fewer templates make a shorter text, in either format. -/
theorem length_rendered_lt (format : Format) (strict : Bool) {rs rs' : List Record}
    (h : rs'.Sublist rs) (hlen : rs'.length < rs.length) :
    ((feed strict rs').finish.rendered format).length <
      ((feed strict rs).finish.rendered format).length := by
  cases format with
  | yaml => exact length_printed_lt Yaml.gauge Yaml.length_print strict h hlen
  | json => exact length_printed_lt Json.gauge Json.length_print strict h hlen

end RefManifest
