import RefManifest.Manifest.Reader
import RefManifest.Proofs.Json.Document
import RefManifest.Render

/-!
# RefManifest.Proofs.Json.Manifest

The JSON form of a manifest holds all of it.

Each structure of the manifest is read back from the document of its outline: first the
templates, then the components, which do without a list of templates that is left out, then the
parts. `ofJson_render` is the round trip of the text.
-/

namespace RefManifest

open Json Document

theorem items_map {α : Type} {item : Reader α} {document : α → Document}
    (h : ∀ x, item (document x) = .ok x) (xs : List α) :
    Reader.items item (xs.map document) = .ok xs := by
  induction xs with
  | nil => rfl
  | cons x xs ih => simp only [List.map_cons, Reader.items, h, ih]

theorem list_map {α : Type} {item : Reader α} {outline : α → Outline.Fields}
    (h : ∀ x, item (.object (ofFields (outline x))) = .ok x) (xs : List α) :
    Reader.list item (ofOutline (.records (xs.map outline))) = .ok xs := by
  rw [ofOutline, ofRecords_map, Reader.list]
  exact items_map h xs

theorem read_text (s : String) : Reader.text (ofOutline (.text s.toList)) = .ok s := by
  rw [ofOutline, Reader.text, String.ofList_toList]

theorem read_requirement (r : Requirement) :
    Requirement.read (ofOutline (.text r.label.toList)) = .ok r := by
  cases r <;> rfl

theorem readTemplate_outline (path : String) :
    readTemplate (.object (ofFields (templateOutline path))) = .ok path := by
  simp [readTemplate, templateOutline, ofFields, ofField, Reader.Shape.read, templateShape,
    Reader.fields, Reader.needed, read_text, Except.map]

/-- A list of templates that is left out is read as the empty one. -/
theorem Component.read_outline (c : Component) :
    Component.read (.object (ofFields c.outline)) = .ok c := by
  obtain ⟨name, requirement, required, optional⟩ := c
  have hrequired := list_map readTemplate_outline required
  have hoptional := list_map readTemplate_outline optional
  by_cases hnone : required = [] <;> by_cases hnone' : optional = [] <;>
    simp [Component.read, Component.outline, templatesOutline, ofFields, ofField,
      Reader.Shape.read, componentShape, Reader.fields, Reader.needed, Except.map, read_text,
      read_requirement, hnone, hnone', hrequired, hoptional]

theorem Part.read_outline (p : Part) : Part.read (.object (ofFields p.outline)) = .ok p := by
  have hcomponents := list_map Component.read_outline p.components
  simp [Part.read, Part.outline, ofFields, ofField, Reader.Shape.read, partShape,
    Reader.fields, Reader.needed, read_text, Except.map, hcomponents]

theorem Manifest.read_outline (m : Manifest) :
    Manifest.read (.object (ofFields m.outline)) = .ok m := by
  have hparts := list_map Part.read_outline m.parts
  simp [Manifest.read, Manifest.outline, ofFields, ofField, Reader.Shape.read, manifestShape,
    Reader.fields, Reader.needed, read_text, Except.map, hparts]

theorem ofTokens_withLineFeed (fields : Outline.Fields) :
    ofTokens (tokens (withLineFeed (print fields))) = (.object (ofFields fields), []) := by
  unfold withLineFeed
  split
  · have hprint := ofTokens_print fields []
    rwa [List.append_nil] at hprint
  · exact ofTokens_print fields ['\n']

/-- The manifest is in its JSON form, whatever its texts and however long its lists. -/
theorem Manifest.ofJson_render (m : Manifest) :
    Manifest.ofJson (m.render .json).toList = .ok m := by
  have htext : (m.render .json).toList = withLineFeed (print m.outline) := String.toList_ofList
  rw [Manifest.ofJson, htext, ofTokens_withLineFeed]
  simp [Manifest.read_outline]

end RefManifest
