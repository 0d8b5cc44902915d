import RefManifest.Proofs.Reports
import RefManifest.Proofs.Template

/-!
# RefManifest.Proofs.LastDeclaration

Which declaration decides the status of a contested component.

A hierarchy only sees what each template has kept of its lines: two flags and the last status. The
lines themselves decide all the same. A flag of a component is set exactly if a line of one of its
templates declares that status (`contested_iff`), and the last status of the last template that
declares any is the last one of all lines, template after template (`getLast?_flatMap`).

* `own_directives`: the records of a component are those of the templates filed under it.
* `lastDeclared_of_conflicted`: no component is in conflict without a last declaration.
* `last_declaration_decides`: the status of a contested component in the manifest of a run.
-/

namespace RefManifest

/-- The last item of the last list that has any is the last of all. -/
theorem getLast?_flatMap {α β : Type} (f : α → List β) (l : List α) :
    (l.filterMap fun x => (f x).getLast?).getLast? = (l.flatMap f).getLast? := by
  induction l using List.reverseRecOn with
  | nil => rfl
  | append_singleton l x ih =>
    rw [List.filterMap_append, List.flatMap_append, List.getLast?_append, List.getLast?_append, ih]
    simp only [List.flatMap_singleton]
    cases hx : (f x).getLast? with
    | none => simp [hx]
    | some y => simp [hx]

namespace Generation

open Disk Text Hierarchy

variable {fs : FileSystem} {s : Settings} {place : List Name} {ts : List Template}
  {rs : List Record}

/-- The statuses that the lines of the template declare for its component. -/
def statusesOf (t : Template) : List Requirement := Directives.statuses (ofFile t.content).toList

/-- The templates that are filed under the part and the component, in their order. -/
def filedUnder (place : List Name) (ts : List Template) (part component : String) :
    List Template :=
  ts.filter fun t => (namesOf place t).toOption = some ⟨part, component⟩

/-- What the records of one component hold is what its templates declare. -/
theorem own_directives (h : readings place ts = (rs, none)) (part component : String) :
    (ofComponent (ofPart rs part) component).map (·.directives) =
      (filedUnder place ts part component).map directivesOf := by
  induction ts generalizing rs with
  | nil =>
    cases h
    rfl
  | cons t ts ih =>
    cases hread : (readRecord place t).result with
    | error f =>
      rw [readings_cons_error hread] at h
      cases h
    | ok r =>
      rw [readings_cons_ok hread] at h
      obtain ⟨rfl, hnone⟩ := Prod.mk.inj h
      have hrest := ih (Prod.ext rfl hnone)
      obtain ⟨-, names, hnames, rfl⟩ := readRecord_ok hread
      simp only [ofPart, ofComponent, filedUnder, List.filter_filter] at hrest ⊢
      by_cases hown : names = ⟨part, component⟩
      · subst hown
        simp [hnames, Except.toOption, hrest]
      · have hout : ¬ (names.component = component ∧ names.part = part) := fun e =>
          hown (by rw [← e.1, ← e.2])
        simp [hnames, Except.toOption, hrest, hown, hout]

section Own

variable {own : List Record} {filed : List Template}
  (h : own.map (·.directives) = filed.map directivesOf)
include h

theorem declared_iff (q : Requirement) :
    (∃ r ∈ own, r.directives.declares q = true) ↔ q ∈ filed.flatMap statusesOf := by
  have hmem : ∀ d, (∃ r ∈ own, r.directives = d) ↔ ∃ t ∈ filed, directivesOf t = d := by
    intro d
    rw [← List.mem_map, h, List.mem_map]
  rw [List.mem_flatMap]
  constructor
  · rintro ⟨r, hr, hflag⟩
    obtain ⟨t, ht, hsame⟩ := (hmem _).1 ⟨r, hr, rfl⟩
    rw [← hsame] at hflag
    exact ⟨t, ht, (Directives.declares_extract q _ _).1 hflag⟩
  · rintro ⟨t, ht, hq⟩
    obtain ⟨r, hr, hsame⟩ := (hmem _).2 ⟨t, ht, rfl⟩
    exact ⟨r, hr, by rw [hsame]; exact (Directives.declares_extract q _ _).2 hq⟩

theorem contested_iff :
    Contested own ↔ .required ∈ filed.flatMap statusesOf ∧ .optional ∈ filed.flatMap statusesOf :=
  and_congr (declared_iff h .required) (declared_iff h .optional)

theorem last_of_own :
    (own.filterMap (·.directives.lastComponentRequirement)).getLast? =
      (filed.flatMap statusesOf).getLast? := by
  have hlast : (fun t : Template => (directivesOf t).lastComponentRequirement) =
      fun t => (statusesOf t).getLast? := funext fun t => Directives.last_extract ..
  have hmap := congrArg (List.filterMap Directives.lastComponentRequirement) h
  rw [List.filterMap_map, List.filterMap_map] at hmap
  rw [← getLast?_flatMap, ← hlast]
  exact congrArg List.getLast? hmap

end Own

theorem lastDeclared_of_conflicted {strict : Bool} (h : readings place ts = (rs, none))
    {p : PartState} (hp : p ∈ (feed strict rs).parts) {c : ComponentState} (hc : c ∈ p.components)
    (hconflicted : c.conflicted = true) : c.lastDeclared ≠ none := by
  rw [feed_parts] at hp
  obtain ⟨part, -, rfl⟩ := List.mem_map.1 hp
  rw [PartState.gathered_components] at hc
  obtain ⟨component, -, rfl⟩ := List.mem_map.1 hc
  have hown := own_directives h part component
  have hdeclared := (contested_iff hown).1 ((conflicted_iff component _).1 hconflicted)
  rw [ComponentState.gathered_lastDeclared, last_of_own hown, Ne, List.getLast?_eq_none_iff]
  exact List.ne_nil_of_mem hdeclared.1

/-- The status of a contested component, in either mode. If lines of its templates declare both
statuses, it has the one that is declared last, the templates taken in the order of the walk and
the lines of each from top to bottom; no component in conflict is without a last declaration.
For what is kept of a template always tells of a last status exactly if one of its two flags is
set, and then the flag of that status is. -/
theorem last_declaration_decides {g : Generated} (h : (generate fs s).result = .ok g) :
    (∃ place ts filed, Found fs s place ts ∧
      (fileAll place (start s.exitOnError) ts).result = .ok filed ∧
      g.manifest = filed.finish ∧
      (∀ p ∈ g.manifest.parts, ∀ c ∈ p.components,
        let declared := (filedUnder place ts p.name c.name).flatMap statusesOf
        .required ∈ declared → .optional ∈ declared →
          declared.getLast? = some c.requirement) ∧
      ∀ p ∈ filed.parts, ∀ c ∈ p.components, c.conflicted = true → c.lastDeclared ≠ none) ∧
    ∀ path content, let d := (Directives.extract path content).1
      (d.lastComponentRequirement ≠ none ↔
        d.componentRequired = true ∨ d.componentOptional = true) ∧
      ∀ q, d.lastComponentRequirement = some q → d.declares q = true := by
  constructor
  · obtain ⟨place, ts, hfound, hbuild⟩ := found_of_result h nofun nofun
    obtain ⟨hgo, hnone, rfl⟩ := build_ok hbuild
    have hreadings : readings place ts = ((readings place ts).1, none) := Prod.ext rfl hnone
    have hfiled := (fileAll_goes_on hgo).1
    rw [hnone, ending, List.nil_append] at hfiled
    refine ⟨place, ts, _, hfound, hfiled, rfl, fun p hp c hc => ?_,
      fun p hp c hc => lastDeclared_of_conflicted hreadings hp hc⟩
    intro declared hrequired hoptional
    have hown := own_directives hreadings p.name c.name
    have hstatus := congrArg Component.requirement (mem_components_finish hp hc)
    rw [requirement_of_contested c.name ((contested_iff hown).2 ⟨hrequired, hoptional⟩),
      last_of_own hown] at hstatus
    obtain ⟨q, hq⟩ := Option.ne_none_iff_exists'.1
      (mt List.getLast?_eq_none_iff.1 (List.ne_nil_of_mem hrequired))
    rw [hq, Option.getD_some] at hstatus
    rw [hstatus]
    exact hq
  · intro path content d
    have hflag := fun q => Directives.declares_extract q path content
    have hlast : d.lastComponentRequirement = (Directives.statuses content).getLast? :=
      Directives.last_extract path content
    constructor
    · rw [hlast, Ne, List.getLast?_eq_none_iff]
      constructor
      · intro hne
        obtain ⟨q, hq⟩ := List.exists_mem_of_ne_nil _ hne
        cases q with
        | required => exact .inl ((hflag .required).2 hq)
        | optional => exact .inr ((hflag .optional).2 hq)
      · rintro (hset | hset)
        · exact List.ne_nil_of_mem ((hflag .required).1 hset)
        · exact List.ne_nil_of_mem ((hflag .optional).1 hset)
    · intro q hq
      rw [hlast] at hq
      exact (hflag q).2 (List.mem_of_getLast? hq)

section Contested

/-- A component whose first template requires it and then makes it optional, and whose second
template declares something of itself alone. -/
def contestedTemplates : List Template :=
  [⟨[toOctets "core", toOctets "dns", toOctets "a.yaml"],
      toOctets "# cluster-compare-component-required\n# cluster-compare-component-optional"⟩,
    ⟨[toOctets "core", toOctets "dns", toOctets "b.yaml"], toOctets "# cluster-compare-required"⟩]

def contestedDisk : FileSystem :=
  ⟨.dir [(toOctets "core", .dir [(toOctets "dns", .dir
    (contestedTemplates.map fun t => (t.names.getLast?.getD [], .file t.content)))])], []⟩

def contestedSettings : Settings := ⟨Path.ofString ".", false, .yaml, ⟨[]⟩, []⟩

def contestedComponent : Component :=
  ⟨"dns", .optional, ["core/dns/a.yaml", "core/dns/b.yaml"], []⟩

theorem last_declaration_decides_dns :
    ∃ g, (generate contestedDisk contestedSettings).result = .ok g ∧
      g.manifest.parts = [⟨"core", [contestedComponent]⟩] ∧
      ∃ place ts, Found contestedDisk contestedSettings place ts ∧
        let declared := (filedUnder place ts "core" "dns").flatMap statusesOf
        .required ∈ declared ∧ .optional ∈ declared ∧ declared.getLast? = some .optional := by
  have hplace : locate contestedDisk contestedSettings.referenceDir = .ok [] := rfl
  have hlisted : (Discovery.discover contestedDisk (Path.ofRoot []) contestedSettings.excludes
      (canonicalSkips contestedDisk contestedSettings.skipPaths)).result =
        .ok contestedTemplates := rfl
  have hparts : (fileAll [] (start false) contestedTemplates).result.toOption.map
      (·.finish.parts) = some [⟨"core", [contestedComponent]⟩] := by decide +kernel
  have hdeclared : (filedUnder [] contestedTemplates "core" "dns").flatMap statusesOf =
      [.required, .optional] := by decide +kernel
  obtain ⟨g, hg⟩ := exists_generated hplace hlisted (by decide +kernel)
  obtain ⟨⟨place, ts, filed, hfound, hfiled, hmanifest, hdecides, -⟩, -⟩ :=
    last_declaration_decides hg
  obtain ⟨rfl, rfl⟩ := Found.unique ⟨hplace, hlisted⟩ hfound
  rw [show contestedSettings.exitOnError = false from rfl] at hfiled
  rw [hfiled, Except.toOption, Option.map_some, Option.some_inj, ← hmanifest] at hparts
  have hpart : ⟨"core", [contestedComponent]⟩ ∈ g.manifest.parts := by
    rw [hparts]
    exact List.mem_singleton.2 rfl
  have hall : ∀ q, q ∈ (filedUnder [] contestedTemplates "core" "dns").flatMap statusesOf := by
    intro q
    rw [hdeclared]
    cases q <;> decide
  exact ⟨g, hg, hparts, [], contestedTemplates, hfound, hall .required, hall .optional,
    hdecides _ hpart contestedComponent (List.mem_singleton.2 rfl) (hall _) (hall _)⟩

end Contested
end Generation
end RefManifest
