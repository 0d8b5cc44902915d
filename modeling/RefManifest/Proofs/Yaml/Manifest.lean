import RefManifest.Proofs.Yaml.Row

/-!
# RefManifest.Proofs.Yaml.Manifest

A manifest as the rows of its printed form.

`Manifest.text_rows` says that the printed form is the text of the rows, and `Manifest.block_rows`
that these rows can be told apart in it. What a row stands for is told by its slot: a part goes on
up to the name of the next part, a component up to the next name of a component or a part, and the
required templates up to the list of the optional ones. So the manifest can be read back from its
rows (`Manifest.rows_injective`).
-/

namespace RefManifest

namespace Yaml

def textValue (s : String) : List Char := ' ' :: written s.toList

/-- What stands behind the name of a list. -/
def listValue {α : Type} (xs : List α) : List Char :=
  if xs.isEmpty then " []\n".toList else ['\n']

def textRow (a : Slot) (s : String) : Row := (a, textValue s)

def listRow {α : Type} (a : Slot) (xs : List α) : Row := (a, listValue xs)

/-- The rows of a list of templates, which is left out if it is empty. -/
def templatesRows (a : Slot) (paths : List String) : List Row :=
  if paths.isEmpty then [] else listRow a paths :: paths.map (textRow .path)

end Yaml

open Yaml

def Component.rows (c : Component) : List Row :=
  textRow .componentName c.name :: textRow .requirement c.requirement.label ::
    (templatesRows .required c.requiredTemplates ++ templatesRows .optional c.optionalTemplates)

def Part.rows (p : Part) : List Row :=
  textRow .partName p.name :: listRow .components p.components ::
    p.components.flatMap Component.rows

def Manifest.rows (m : Manifest) : List Row :=
  textRow .version m.apiVersion :: listRow .parts m.parts :: m.parts.flatMap Part.rows

namespace Yaml

theorem printRecords_map {α : Type} (indent : Nat) (outline : α → Outline.Fields) (xs : List α) :
    printRecords indent (xs.map outline) =
      xs.flatMap fun x => spaces indent ++ '-' :: ' ' :: printRecord (indent + 2) (outline x) := by
  induction xs with
  | nil => rfl
  | cons x xs ih => rw [List.map_cons, printRecords, ih, List.flatMap_cons]

theorem printRecord_cons (indent : Nat) (f : String × Outline) (fs : Outline.Fields) :
    printRecord indent (f :: fs) =
      printField indent f ++ fs.flatMap fun f => spaces indent ++ printField indent f := by
  induction fs generalizing f with
  | nil => simp [printRecord]
  | cons f' fs ih =>
    rw [printRecord, ih, List.flatMap_cons]
    simp

variable {a : Slot} {start : List Char} {name : String}

/-- A text behind its name is a row, together with what stands in front of the name. -/
theorem text_textRow (hlead : a.lead = start ++ name.toList) (s : String) :
    (textRow a s).text = start ++ printField a.indent (name, .text s.toList) := by
  rw [printField, printValue, endLine_scalar, Row.text, textRow, textValue, hlead,
    List.append_assoc]

theorem text_listRow {α : Type} (hlead : a.lead = start ++ name.toList)
    (outline : α → Outline.Fields) (xs : List α) :
    (listRow a xs).text ++ printRecords a.indent (xs.map outline) =
      start ++ printField a.indent (name, .records (xs.map outline)) := by
  cases xs with
  | nil =>
    simp [Row.text, listRow, listValue, hlead, printField, printValue, printRecords, literalBody,
      isBreak]
  | cons x xs =>
    simp [Row.text, listRow, listValue, hlead, printField, printValue, literalBody, isBreak]

theorem text_paths (paths : List String) :
    text (paths.map (textRow .path)) = printRecords 4 (paths.map templateOutline) := by
  rw [printRecords_map, text, List.flatMap_map]
  congr 1
  funext path
  exact @text_textRow .path "    - ".toList "path" rfl path

theorem text_templatesRows (hlead : a.lead = spaces 4 ++ name.toList) (hindent : a.indent = 4)
    (paths : List String) :
    text (templatesRows a paths) =
      (templatesOutline name paths).flatMap fun f => spaces 4 ++ printField 4 f := by
  unfold templatesRows templatesOutline
  split
  · rfl
  · have hlist := text_listRow hlead templateOutline paths
    rw [hindent] at hlist
    rw [text, List.flatMap_cons, List.flatMap_singleton, ← text, text_paths, hlist]

end Yaml

theorem Component.text_rows (c : Component) :
    text c.rows = "  - ".toList ++ printRecord 4 c.outline := by
  have hname := @text_textRow .componentName "  - ".toList "name" rfl c.name
  have htype := @text_textRow .requirement (spaces 4) "type" rfl c.requirement.label
  have hrequired := @text_templatesRows .required "requiredTemplates" rfl rfl c.requiredTemplates
  have hoptional := @text_templatesRows .optional "optionalTemplates" rfl rfl c.optionalTemplates
  simp only [text] at hrequired hoptional
  rw [Component.rows, text, List.flatMap_cons, List.flatMap_cons, List.flatMap_append, hname, htype,
    hrequired, hoptional, Component.outline, List.cons_append, List.cons_append, printRecord_cons]
  simp [Slot.indent]

theorem Part.text_rows (p : Part) : text p.rows = "- ".toList ++ printRecord 2 p.outline := by
  have hname := @text_textRow .partName "- ".toList "name" rfl p.name
  have hlist := @text_listRow .components (spaces 2) "components" _ rfl Component.outline
    p.components
  have hcomponents : (p.components.flatMap Component.rows).flatMap Row.text =
      printRecords 2 (p.components.map Component.outline) := by
    rw [printRecords_map, List.flatMap_assoc]
    congr 1
    funext c
    exact c.text_rows
  simp only [Slot.indent] at hname hlist
  rw [Part.rows, text, List.flatMap_cons, List.flatMap_cons, hcomponents, hlist, hname,
    Part.outline, printRecord_cons]
  simp

/-- A manifest is printed row by row. -/
theorem Manifest.text_rows (m : Manifest) : text m.rows = Yaml.print m.outline := by
  have hversion := @text_textRow .version [] "apiVersion" rfl m.apiVersion
  have hlist := @text_listRow .parts [] "parts" _ rfl Part.outline m.parts
  have hparts : (m.parts.flatMap Part.rows).flatMap Row.text =
      printRecords 0 (m.parts.map Part.outline) := by
    rw [printRecords_map, List.flatMap_assoc]
    congr 1
    funext p
    exact p.text_rows
  simp only [Slot.indent] at hversion hlist
  rw [Manifest.rows, text, List.flatMap_cons, List.flatMap_cons, hparts, hlist, hversion,
    Yaml.print, Manifest.outline, printRecord_cons]
  simp [spaces]

namespace Yaml

theorem endsBroken_textValue (s : String) : endsBroken (textValue s) = true := by
  have hne : written s.toList ≠ [] := by
    obtain ⟨c, rest, hwritten, -⟩ := written_eq_cons s.toList
    rw [hwritten]
    exact List.cons_ne_nil _ _
  exact (endsBroken_append [' '] hne).trans (endsBroken_endLine _)

theorem endsBroken_listValue {α : Type} (xs : List α) : endsBroken (listValue xs) = true := by
  unfold listValue
  split <;> rfl

theorem block_paths (paths : List String) : Block 4 (paths.map (textRow .path)) := by
  rw [List.map_eq_flatMap]
  exact .flatMap (fun path => .cons (by decide) (endsBroken_textValue path) (@Block.nil 4)) paths

theorem block_templatesRows {a : Slot} (ha : a.column = 4 ∧ a.indent = 4) (paths : List String) :
    Block 4 (templatesRows a paths) := by
  unfold templatesRows
  split
  · exact .nil
  · exact .cons (by rw [ha.1, ha.2]; decide) (endsBroken_listValue paths) (block_paths paths)

end Yaml

theorem Component.block_rows (c : Component) : Block 2 c.rows := by
  have hrequired := @block_templatesRows .required (by decide) c.requiredTemplates
  have hoptional := @block_templatesRows .optional (by decide) c.optionalTemplates
  have htype : Block 4 (textRow .requirement c.requirement.label :: (_ ++ _)) :=
    .cons (by decide) (endsBroken_textValue _) (hrequired.append hoptional)
  exact .cons (by decide) (endsBroken_textValue _) htype

theorem Part.block_rows (p : Part) : Block 0 p.rows := by
  have hlist : Block 2 (listRow .components p.components :: _) :=
    .cons (by decide) (endsBroken_listValue _) (.flatMap Component.block_rows p.components)
  exact .cons (by decide) (endsBroken_textValue _) hlist

theorem Manifest.block_rows (m : Manifest) : Block 0 m.rows := by
  have hlist : Block 0 (listRow .parts m.parts :: _) :=
    .cons (by decide) (endsBroken_listValue _) (.flatMap Part.block_rows m.parts)
  exact .cons (by decide) (endsBroken_textValue _) hlist

/-! ## Reading the rows -/

namespace Yaml

variable {α β : Type} {starts : β → Bool}

theorem append_injective {t t' r r' : List β} (ht : ∀ y ∈ t, starts y = false)
    (ht' : ∀ y ∈ t', starts y = false) (hr : ∀ y ∈ r.head?, starts y = true)
    (hr' : ∀ y ∈ r'.head?, starts y = true) (h : t ++ r = t' ++ r') : t = t' ∧ r = r' := by
  have htake : ∀ {t r : List β}, (∀ y ∈ t, starts y = false) → (∀ y ∈ r.head?, starts y = true) →
      (t ++ r).takeWhile (fun y => !starts y) = t := by
    intro t r ht hr
    rw [List.takeWhile_append_of_pos fun y hy => by rw [ht y hy]; rfl]
    cases r with
    | nil => simp
    | cons y r => simp [hr y rfl]
  have hfront : t = t' := by rw [← htake ht hr, h, htake ht' hr']
  subst hfront
  exact ⟨rfl, List.append_cancel_left h⟩

theorem blocks_injective {f : α → List β}
    (hf : ∀ x, ∃ y t, f x = y :: t ∧ starts y = true ∧ ∀ z ∈ t, starts z = false)
    (hinj : ∀ x x', f x = f x' → x = x') {xs xs' : List α}
    (h : xs.flatMap f = xs'.flatMap f) : xs = xs' := by
  have hhead : ∀ xs : List α, ∀ y ∈ (xs.flatMap f).head?, starts y = true := by
    intro xs y hy
    cases xs with
    | nil => cases hy
    | cons x xs =>
      obtain ⟨z, t, hx, hz, -⟩ := hf x
      rw [List.flatMap_cons, hx] at hy
      cases hy
      exact hz
  induction xs generalizing xs' with
  | nil =>
    cases xs' with
    | nil => rfl
    | cons x' xs' =>
      obtain ⟨z, t, hx, -⟩ := hf x'
      rw [List.flatMap_cons, hx] at h
      cases h
  | cons x xs ih =>
    obtain ⟨z, t, hx, hz, ht⟩ := hf x
    cases xs' with
    | nil =>
      rw [List.flatMap_cons, hx] at h
      cases h
    | cons x' xs' =>
      obtain ⟨z', t', hx', hz', ht'⟩ := hf x'
      rw [List.flatMap_cons, List.flatMap_cons, hx, hx', List.cons_append, List.cons_append] at h
      obtain ⟨rfl, hrest⟩ := List.cons.inj h
      obtain ⟨rfl, hblocks⟩ := append_injective ht ht' (hhead xs) (hhead xs') hrest
      rw [hinj x x' (hx.trans hx'.symm), ih hblocks]

theorem textRow_injective {a : Slot} {s s' : String} (h : textRow a s = textRow a s') : s = s' :=
  String.toList_inj.1 (written_injective (List.tail_eq_of_cons_eq (Prod.ext_iff.1 h).2))

theorem templatesRows_injective {a : Slot} {paths paths' : List String}
    (h : templatesRows a paths = templatesRows a paths') : paths = paths' := by
  unfold templatesRows at h
  cases paths with
  | nil =>
    cases paths' with
    | nil => rfl
    | cons path' paths' => cases h
  | cons path paths =>
    cases paths' with
    | nil => cases h
    | cons path' paths' =>
      exact List.map_injective_iff.2 (fun _ _ => textRow_injective) (List.tail_eq_of_cons_eq h)

theorem slot_templatesRows (a : Slot) (paths : List String) :
    (∀ y ∈ (templatesRows a paths).head?, y.1 = a) ∧
      ∀ y ∈ templatesRows a paths, y.1 = a ∨ y.1 = .path := by
  unfold templatesRows
  split
  · simp
  · refine ⟨fun y hy => ?_, List.forall_mem_cons.2 ⟨.inl rfl, fun y hy => ?_⟩⟩
    · cases hy
      rfl
    · obtain ⟨path, -, rfl⟩ := List.mem_map.1 hy
      exact .inr rfl

end Yaml

theorem Component.rows_injective (c c' : Component) (h : c.rows = c'.rows) : c = c' := by
  obtain ⟨hname, hrest⟩ := List.cons.inj h
  obtain ⟨htype, htemplates⟩ := List.cons.inj hrest
  have hrequirement : c.requirement = c'.requirement := by
    have hlabel : c.requirement.label = c'.requirement.label := textRow_injective htype
    revert hlabel
    cases c.requirement <;> cases c'.requirement <;> decide
  have hfront : ∀ paths, ∀ y ∈ templatesRows .required paths, (y.1 == Slot.optional) = false := by
    intro paths y hy
    rcases (slot_templatesRows .required paths).2 y hy with hslot | hslot <;> rw [hslot] <;> rfl
  have hback : ∀ paths, ∀ y ∈ (templatesRows .optional paths).head?,
      (y.1 == Slot.optional) = true := by
    intro paths y hy
    rw [(slot_templatesRows .optional paths).1 y hy]
    rfl
  obtain ⟨hrequired, hoptional⟩ :=
    append_injective (hfront _) (hfront _) (hback _) (hback _) htemplates
  obtain ⟨name, requirement, required, optional⟩ := c
  obtain ⟨name', requirement', required', optional'⟩ := c'
  cases textRow_injective hname
  cases hrequirement
  cases templatesRows_injective hrequired
  cases templatesRows_injective hoptional
  rfl

theorem Component.rows_eq_cons (c : Component) :
    ∃ y t, c.rows = y :: t ∧ y.1 = .componentName ∧
      ∀ z ∈ t, (z.1 == Slot.componentName) = false ∧ (z.1 == Slot.partName) = false := by
  refine ⟨_, _, rfl, rfl, List.forall_mem_cons.2 ⟨⟨rfl, rfl⟩, List.forall_mem_append.2 ⟨?_, ?_⟩⟩⟩
  · intro z hz
    rcases (slot_templatesRows .required _).2 z hz with hslot | hslot <;> rw [hslot] <;> decide
  · intro z hz
    rcases (slot_templatesRows .optional _).2 z hz with hslot | hslot <;> rw [hslot] <;> decide

theorem Part.rows_injective (p p' : Part) (h : p.rows = p'.rows) : p = p' := by
  obtain ⟨hname, hrest⟩ := List.cons.inj h
  obtain ⟨name, components⟩ := p
  obtain ⟨name', components'⟩ := p'
  cases textRow_injective hname
  have hcomponents : ∀ c : Component, ∃ y t, c.rows = y :: t ∧
      (y.1 == Slot.componentName) = true ∧ ∀ z ∈ t, (z.1 == Slot.componentName) = false := by
    intro c
    obtain ⟨y, t, hrows, hy, ht⟩ := c.rows_eq_cons
    exact ⟨y, t, hrows, beq_iff_eq.2 hy, fun z hz => (ht z hz).1⟩
  cases blocks_injective hcomponents Component.rows_injective (List.cons.inj hrest).2
  rfl

theorem Part.rows_eq_cons (p : Part) :
    ∃ y t, p.rows = y :: t ∧ (y.1 == Slot.partName) = true ∧
      ∀ z ∈ t, (z.1 == Slot.partName) = false := by
  refine ⟨_, _, rfl, rfl, List.forall_mem_cons.2 ⟨rfl, fun z hz => ?_⟩⟩
  obtain ⟨c, -, hc⟩ := List.mem_flatMap.1 hz
  obtain ⟨y, t, hrows, hy, ht⟩ := c.rows_eq_cons
  rw [hrows] at hc
  rcases List.mem_cons.1 hc with rfl | hrest
  · rw [hy]
    rfl
  · exact (ht z hrest).2

theorem Manifest.rows_injective {m m' : Manifest} (h : m.rows = m'.rows) : m = m' := by
  obtain ⟨hversion, hrest⟩ := List.cons.inj h
  obtain ⟨version, parts⟩ := m
  obtain ⟨version', parts'⟩ := m'
  cases textRow_injective hversion
  cases blocks_injective Part.rows_eq_cons Part.rows_injective (List.cons.inj hrest).2
  rfl

end RefManifest
