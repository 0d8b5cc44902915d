import Mathlib.Data.List.ModifyLast
import RefManifest.Proofs.Yaml.Manifest

/-!
# RefManifest.Proofs.Yaml.Rendering

Which manifests have the same text in YAML.

The rows of a manifest can be read back from its printed form, and the manifest from its rows. The
line feed that ends a text is put behind the last row, if the printed form ends with another break.
Where the last row holds a path that is unterminated, its value becomes that of the path with a line
feed more. `rendered_yaml_eq_iff` says that two manifests have the same text exactly if they are
equal or differ in that way.
-/

namespace RefManifest

open Yaml

def Component.lastPath? (c : Component) : Option String := c.templatePaths.getLast?

def Part.lastPath? (p : Part) : Option String :=
  p.components.getLast?.bind Component.lastPath?

/-- The path that is written at the end of the manifest, if one is. -/
def Manifest.lastPath? (m : Manifest) : Option String := m.parts.getLast?.bind Part.lastPath?

def Component.alterLastPath (f : String → String) (c : Component) : Component :=
  if c.optionalTemplates.isEmpty then
    { c with requiredTemplates := c.requiredTemplates.modifyLast f }
  else { c with optionalTemplates := c.optionalTemplates.modifyLast f }

def Part.alterLastPath (f : String → String) (p : Part) : Part :=
  { p with components := p.components.modifyLast (Component.alterLastPath f) }

/-- The manifest with another path at its end. -/
def Manifest.alterLastPath (f : String → String) (m : Manifest) : Manifest :=
  { m with parts := m.parts.modifyLast (Part.alterLastPath f) }

namespace Yaml

variable {rows : List Row} {last? : Option String} {altered : (String → String) → List Row}

/-- The rows end with the last path, and the altered ones with what is made of it. Without a last
path they end with another row, and with a line feed. -/
def EndWith (last? : Option String) (rows : List Row) (altered : (String → String) → List Row) :
    Prop :=
  match last? with
  | some path => ∃ front, rows = front ++ [textRow .path path] ∧
      ∀ f, altered f = front ++ [textRow .path (f path)]
  | none => ∃ front a v, rows = front ++ [(a, v)] ∧ a ≠ .path ∧ v.getLast? = some '\n'

theorem EndWith.append (h : EndWith last? rows altered) (before : List Row) :
    EndWith last? (before ++ rows) fun f => before ++ altered f := by
  cases last? with
  | some path =>
    obtain ⟨front, rfl, haltered⟩ := h
    refine ⟨before ++ front, (List.append_assoc ..).symm, fun f => ?_⟩
    simp only [haltered, List.append_assoc]
  | none =>
    obtain ⟨front, a, v, rfl, ha, hv⟩ := h
    exact ⟨before ++ front, a, v, (List.append_assoc ..).symm, ha, hv⟩

theorem listRow_concat {α : Type} (a : Slot) (xs : List α) (x : α) :
    listRow a (xs ++ [x]) = (a, ['\n']) := by simp [listRow, listValue]

theorem templatesRows_nil (a : Slot) : templatesRows a [] = [] := rfl

theorem templatesRows_concat (a : Slot) (paths : List String) (path : String) :
    templatesRows a (paths ++ [path]) =
      (a, ['\n']) :: paths.map (textRow .path) ++ [textRow .path path] := by
  simp [templatesRows, listRow_concat]

end Yaml

namespace Component

theorem rows_last (c : Component) :
    EndWith c.lastPath? c.rows fun f => (c.alterLastPath f).rows := by
  obtain ⟨name, requirement, required, optional⟩ := c
  rcases List.eq_nil_or_concat' optional with rfl | ⟨paths, path, rfl⟩
  · rcases List.eq_nil_or_concat' required with rfl | ⟨paths, path, rfl⟩
    · refine ⟨[textRow .componentName name], .requirement, textValue requirement.label, rfl,
        by decide, ?_⟩
      cases requirement <;> decide +kernel
    · have hlast : lastPath? ⟨name, requirement, paths ++ [path], []⟩ = some path := by
        simp [lastPath?, templatePaths]
      rw [hlast]
      refine ⟨textRow .componentName name :: textRow .requirement requirement.label ::
        (.required, ['\n']) :: paths.map (textRow .path), ?_, fun f => ?_⟩
      · simp [rows, templatesRows_concat, templatesRows_nil]
      · simp [rows, alterLastPath, templatesRows_concat, templatesRows_nil, List.modifyLast_concat]
  · have hlast : lastPath? ⟨name, requirement, required, paths ++ [path]⟩ = some path := by
      simp [lastPath?, templatePaths]
    rw [hlast]
    refine ⟨textRow .componentName name :: textRow .requirement requirement.label ::
      (templatesRows .required required ++ (.optional, ['\n']) :: paths.map (textRow .path)),
      ?_, fun f => ?_⟩
    · simp [rows, templatesRows_concat]
    · simp [rows, alterLastPath, templatesRows_concat, List.modifyLast_concat]

end Component

namespace Part

theorem rows_concat (name : String) (cs : List Component) (c : Component) :
    rows ⟨name, cs ++ [c]⟩ =
      (textRow .partName name :: (.components, ['\n']) :: cs.flatMap Component.rows) ++ c.rows := by
  simp [rows, listRow_concat]

theorem rows_last (p : Part) : EndWith p.lastPath? p.rows fun f => (p.alterLastPath f).rows := by
  obtain ⟨name, components⟩ := p
  rcases List.eq_nil_or_concat' components with rfl | ⟨cs, c, rfl⟩
  · exact ⟨[textRow .partName name], .components, _, rfl, by decide, rfl⟩
  · have hlast : lastPath? ⟨name, cs ++ [c]⟩ = c.lastPath? := by
      rw [lastPath?, List.getLast?_concat]
      rfl
    simp only [hlast, alterLastPath, List.modifyLast_concat, rows_concat]
    exact c.rows_last.append _

end Part

namespace Manifest

theorem rows_concat (version : String) (ps : List Part) (p : Part) :
    rows ⟨version, ps ++ [p]⟩ =
      (textRow .version version :: (.parts, ['\n']) :: ps.flatMap Part.rows) ++ p.rows := by
  simp [rows, listRow_concat]

theorem rows_last (m : Manifest) :
    EndWith m.lastPath? m.rows fun f => (m.alterLastPath f).rows := by
  obtain ⟨version, parts⟩ := m
  rcases List.eq_nil_or_concat' parts with rfl | ⟨ps, p, rfl⟩
  · exact ⟨[textRow .version version], .parts, _, rfl, by decide, rfl⟩
  · have hlast : lastPath? ⟨version, ps ++ [p]⟩ = p.lastPath? := by
      rw [lastPath?, List.getLast?_concat]
      rfl
    simp only [hlast, alterLastPath, List.modifyLast_concat, rows_concat]
    exact p.rows_last.append _

end Manifest

/-! ## Equal texts -/

/-- The last path of `m` is unterminated, and `m'` is `m` with a line feed behind it. -/
def Manifest.Continues (m m' : Manifest) : Prop :=
  ∃ path, m.lastPath? = some path ∧ Unterminated path.toList ∧
    m' = m.alterLastPath fun path => path ++ "\n"

theorem withLineFeed_eq_iff {s s' : List Char} :
    withLineFeed s = withLineFeed s' ↔
      s = s' ∨ (s.getLast? ≠ some '\n' ∧ s' = s ++ ['\n']) ∨
        (s'.getLast? ≠ some '\n' ∧ s = s' ++ ['\n']) := by
  constructor
  · intro heq
    unfold withLineFeed at heq
    by_cases h : s.getLast? = some '\n'
    · by_cases h' : s'.getLast? = some '\n'
      · rw [if_pos h, if_pos h'] at heq
        exact .inl heq
      · rw [if_pos h, if_neg h'] at heq
        exact .inr (.inr ⟨h', heq⟩)
    · by_cases h' : s'.getLast? = some '\n'
      · rw [if_neg h, if_pos h'] at heq
        exact .inr (.inl ⟨h, heq.symm⟩)
      · rw [if_neg h, if_neg h'] at heq
        exact .inl (List.append_cancel_right heq)
  · have hconcat : ∀ {t : List Char}, t.getLast? ≠ some '\n' →
        withLineFeed t = withLineFeed (t ++ ['\n']) := by
      intro t ht
      rw [withLineFeed, if_neg ht, withLineFeed, List.getLast?_concat, if_pos rfl]
    rintro (rfl | ⟨h, rfl⟩ | ⟨h', rfl⟩)
    · rfl
    · exact hconcat h
    · exact (hconcat h').symm

namespace Manifest

variable {m m' : Manifest}

/-- The text of a manifest is that of its rows, with the line feed at its end in the last one. -/
theorem rendered_yaml {front : List Row} {a : Slot} {v : List Char}
    (h : m.rows = front ++ [(a, v)]) :
    m.rendered .yaml = text (front ++ [(a, withLineFeed v)]) ∧
      Legible (front ++ [(a, withLineFeed v)]) := by
  have hlegible := m.block_rows.toLegible
  rw [h] at hlegible
  have hv : endsBroken v = true := hlegible.ended (a, v) (by simp)
  have hne : v ≠ [] := by
    rintro rfl
    cases hv
  refine ⟨?_, hlegible.concat_congr ?_⟩
  · rw [rendered, ← m.text_rows, h, withLineFeed_text front a hne]
  · unfold withLineFeed
    split
    · exact hv
    · exact endsBroken_concat v '\n'

theorem textRow_lineFeed {path : String} (h : Unterminated path.toList) :
    textRow .path (path ++ "\n") = (.path, textValue path ++ ['\n']) := by
  have hwritten : written (path ++ "\n").toList = written path.toList ++ ['\n'] := by
    rw [String.toList_append]
    exact h.written_concat
  rw [textRow, textValue, hwritten]
  rfl

theorem getLast?_textValue (s : String) : (textValue s).getLast? = (written s.toList).getLast? := by
  obtain ⟨c, rest, hwritten, -⟩ := written_eq_cons s.toList
  rw [textValue, hwritten, List.getLast?_cons_cons]

theorem continues_iff {front : List Row} {a : Slot} {v : List Char}
    (h : m.rows = front ++ [(a, v)]) :
    m.Continues m' ↔ v.getLast? ≠ some '\n' ∧ m'.rows = front ++ [(a, v ++ ['\n'])] := by
  have hlast := m.rows_last
  constructor
  · rintro ⟨path, hpath, hopen, rfl⟩
    rw [hpath] at hlast
    obtain ⟨before, hrows, haltered⟩ := hlast
    obtain ⟨rfl, hrow⟩ := List.append_inj' (h.symm.trans hrows) rfl
    cases hrow
    refine ⟨?_, ?_⟩
    · rw [getLast?_textValue]
      exact hopen.getLast?_written
    · rw [← textRow_lineFeed hopen]
      exact haltered fun path => path ++ "\n"
  · rintro ⟨hv, h'⟩
    have hlast' := m'.rows_last
    cases hpath : m.lastPath? with
    | none =>
      rw [hpath] at hlast
      obtain ⟨before, b, w, hrows, -, hw⟩ := hlast
      obtain ⟨-, hrow⟩ := List.append_inj' (h.symm.trans hrows) rfl
      cases hrow
      exact absurd hw hv
    | some path =>
      rw [hpath] at hlast
      obtain ⟨before, hrows, haltered⟩ := hlast
      obtain ⟨rfl, hrow⟩ := List.append_inj' (h.symm.trans hrows) rfl
      cases hrow
      cases hpath' : m'.lastPath? with
      | none =>
        rw [hpath'] at hlast'
        obtain ⟨before, b, w, hrows', hb, -⟩ := hlast'
        obtain ⟨-, hrow⟩ := List.append_inj' (h'.symm.trans hrows') rfl
        cases hrow
        exact absurd rfl hb
      | some path' =>
        rw [hpath'] at hlast'
        obtain ⟨before, hrows', -⟩ := hlast'
        obtain ⟨rfl, hrow⟩ := List.append_inj' (h'.symm.trans hrows') rfl
        have hwritten : written path'.toList = written path.toList ++ ['\n'] := by
          have hvalue := (Prod.ext_iff.1 (List.head_eq_of_cons_eq hrow)).2
          exact (List.tail_eq_of_cons_eq hvalue).symm
        rw [getLast?_textValue] at hv
        obtain ⟨hopen, -⟩ := written_concat_iff.1 ⟨hwritten, hv⟩
        refine ⟨path, hpath, hopen, rows_injective (h'.trans ?_)⟩
        rw [← textRow_lineFeed hopen]
        exact (haltered fun path => path ++ "\n").symm

theorem Continues.rendered_eq (h : m.Continues m') : m.rendered .yaml = m'.rendered .yaml := by
  rcases List.eq_nil_or_concat' m.rows with hnil | ⟨front, ⟨a, v⟩, hrows⟩
  · cases hnil
  · obtain ⟨hv, hrows'⟩ := (continues_iff hrows).1 h
    rw [(rendered_yaml hrows).1, (rendered_yaml hrows').1,
      withLineFeed_eq_iff.2 (.inr (.inl ⟨hv, rfl⟩))]

/-- Two manifests have the same text in YAML exactly if they are equal, or if one of them goes on
where the last path of the other one is unterminated. -/
theorem rendered_yaml_eq_iff :
    m.rendered .yaml = m'.rendered .yaml ↔ m = m' ∨ m.Continues m' ∨ m'.Continues m := by
  constructor
  · intro heq
    rcases List.eq_nil_or_concat' m.rows with hnil | ⟨front, ⟨a, v⟩, hrows⟩
    · cases hnil
    rcases List.eq_nil_or_concat' m'.rows with hnil | ⟨front', ⟨a', v'⟩, hrows'⟩
    · cases hnil
    obtain ⟨htext, hlegible⟩ := rendered_yaml hrows
    obtain ⟨htext', hlegible'⟩ := rendered_yaml hrows'
    rw [htext, htext'] at heq
    obtain ⟨rfl, hlast⟩ := List.append_inj' (text_injective hlegible hlegible' heq) rfl
    obtain ⟨rfl, hvalue⟩ := Prod.mk.inj (List.head_eq_of_cons_eq hlast)
    rcases withLineFeed_eq_iff.1 hvalue with rfl | ⟨hv, rfl⟩ | ⟨hv', rfl⟩
    · exact .inl (rows_injective (hrows.trans hrows'.symm))
    · exact .inr (.inl ((continues_iff hrows).2 ⟨hv, hrows'⟩))
    · exact .inr (.inr ((continues_iff hrows').2 ⟨hv', hrows⟩))
  · rintro (rfl | h | h)
    · rfl
    · exact h.rendered_eq
    · exact h.rendered_eq.symm

end Manifest

end RefManifest
