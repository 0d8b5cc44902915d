import RefManifest.Proofs.Hierarchy.Grouping
import RefManifest.Proofs.Parent
import RefManifest.Proofs.Reports
import RefManifest.Proofs.Template
import RefManifest.Proofs.Text.Utf8

/-!
# RefManifest.Proofs.Naming

The names that templates are filed under.

The path that names are derived from starts with the name of the reference directory, so the last
name but one is that of the directory that holds the template, and the last name but two that of
the directory above, unless the template lies in the reference directory itself. There the
directory above is out of sight, and only a directive can name the part: a template without one is
`Nameless`, and it is the only kind that a run cannot name.

* `namesOf_eq`: the names of a template, or that it is nameless.
* `recordAt`: the record of a template that is read and named.
* `generate_eq_nameless`: a run fails for want of a name exactly at the first nameless template.
* `generate_names`: what the templates of a run are filed under, and when a name is missing.
-/

namespace RefManifest
namespace Generation

open Disk Text Hierarchy

variable {fs : FileSystem} {s : Settings} {place : List Name} {ts : List Template} {t : Template}
  {rs : List Record} {f : Failure}

/-- The name that the first line to declare one declares. -/
def declared? (axis : NameAxis) (t : Template) : Option String :=
  (lines (ofFile t.content).toList).findSome? (Directive.nameOn? axis)

/-- The name of the directory at `place` as text. -/
def dirText (place : List Name) : String := ofOctets (place.getLast?.getD [])

/-- The component of the template: the declared one, or the directory that holds it. -/
def componentName (place : List Name) (t : Template) : String :=
  (declared? .component t).getD (dirText (place ++ t.names.dropLast))

/-- The part of the template: the declared one, or the directory above the one that holds it. -/
def partName (place : List Name) (t : Template) : String :=
  (declared? .part t).getD (dirText (place ++ t.names.dropLast.dropLast))

/-- The template lies in the reference directory itself and declares no part. -/
def Nameless (t : Template) : Prop := t.names.length = 1 ∧ declared? .part t = none

instance (t : Template) : Decidable (Nameless t) := inferInstanceAs (Decidable (_ ∧ _))

def recordAt (place : List Name) (t : Template) : Record :=
  ⟨t.id, partName place t, componentName place t, directivesOf t⟩

theorem Found.file (hx : fs.root.Valid) (h : Found fs s place ts) (ht : t ∈ ts) :
    fs.root.entryAt (place ++ t.names) = some (.file t.content) := by
  have hdir := (locate_eq_ok.1 h.located).2
  have hlisted := ((Discovery.discover_eq_ok hx hdir (validName_of_skipPlaces hx)).1 h.listed).2
  exact ((hlisted.mem t).1 ht).file

theorem Found.validName (hx : fs.root.Valid) (h : Found fs s place ts) (ht : t ∈ ts) :
    ∀ n ∈ place ++ t.names, Node.ValidName n :=
  Node.validName_of_get? hx (Node.entryAt_eq_file.1 (h.file hx ht))

theorem Found.names_ne_nil (hx : fs.root.Valid) (h : Found fs s place ts) (ht : t ∈ ts) :
    t.names ≠ [] := by
  intro hnil
  have hfile := h.file hx ht
  rw [hnil, List.append_nil, (locate_eq_ok.1 h.located).2] at hfile
  cases hfile

theorem Found.place_ne_nil (hroot : locate fs s.referenceDir ≠ .ok [])
    (h : Found fs s place ts) : place ≠ [] := by
  rintro rfl
  exact hroot h.located

/-! ## Resolving -/

/-- A template below a place that has a name: what naming has to go by. -/
structure Placed (place : List Name) (t : Template) : Prop where
  place_ne_nil : place ≠ []
  names_ne_nil : t.names ≠ []
  validName : ∀ n ∈ place ++ t.names, Node.ValidName n

theorem Found.placed (hx : fs.root.Valid) (hroot : locate fs s.referenceDir ≠ .ok [])
    (h : Found fs s place ts) (ht : t ∈ ts) : Placed place t :=
  ⟨h.place_ne_nil hroot, h.names_ne_nil hx ht, h.validName hx ht⟩

theorem slot_directivesOf (axis : NameAxis) (t : Template) :
    (directivesOf t).slot axis = declared? axis t :=
  Directives.slot_extract ..

theorem dirText_ne_empty {place : List Name} (hne : place ≠ [])
    (h : ∀ n ∈ place, Node.ValidName n) : dirText place ≠ "" := by
  rw [dirText, List.getLast?_eq_getLast_of_ne_nil hne, Option.getD_some]
  exact ofOctets_ne_empty (h _ (List.getLast_mem hne)).1

theorem declared?_ne_empty {axis : NameAxis} {name : String} (h : declared? axis t = some name) :
    name ≠ "" := by
  obtain ⟨line, -, hline⟩ := List.exists_of_findSome?_eq_some h
  exact Directive.nameOn?_ne_empty hline

theorem componentName_ne_empty (h : Placed place t) : componentName place t ≠ "" := by
  unfold componentName
  cases hdeclared : declared? .component t with
  | some name => exact declared?_ne_empty hdeclared
  | none =>
    refine dirText_ne_empty (by simp [h.place_ne_nil]) fun n hn => h.validName n ?_
    rcases List.mem_append.1 hn with hn | hn
    · exact List.mem_append_left _ hn
    · exact List.mem_append_right _ (List.mem_of_mem_dropLast hn)

theorem partName_ne_empty (h : Placed place t) : partName place t ≠ "" := by
  unfold partName
  cases hdeclared : declared? .part t with
  | some name => exact declared?_ne_empty hdeclared
  | none =>
    refine dirText_ne_empty (by simp [h.place_ne_nil]) fun n hn => h.validName n ?_
    rcases List.mem_append.1 hn with hn | hn
    · exact List.mem_append_left _ hn
    · exact List.mem_append_right _ (List.mem_of_mem_dropLast (List.mem_of_mem_dropLast hn))

/-- The names on the path that names are derived from. -/
theorem components_namingPath (h : Placed place t) :
    (namingPath place.getLast? t).components = (place.getLast?.toList ++ t.names).map .name := by
  refine Path.components_ofNames fun n hn => h.validName n ?_
  rcases List.mem_append.1 hn with hn | hn
  · exact List.mem_append_left _ (List.mem_of_getLast? (Option.mem_toList.1 hn))
  · exact List.mem_append_right _ hn

theorem getLast?_below (place below : List Name) :
    (place.getLast?.toList ++ below).getLast? = (place ++ below).getLast? := by
  have hlast : place.getLast?.toList.getLast? = place.getLast? := by
    cases place.getLast? <;> rfl
  rw [List.getLast?_append, List.getLast?_append, hlast]

/-- The directory above a template bears the name that the component falls back to. -/
theorem ofDir?_holder (h : Placed place t) :
    Names.ofDir? (namingPath place.getLast? t).parent? =
      some (dirText (place ++ t.names.dropLast)) := by
  have hne : place ++ t.names.dropLast ≠ [] := by simp [h.place_ne_nil]
  rw [Names.ofDir?_parent_of_names (components_namingPath h),
    List.dropLast_append_of_ne_nil h.names_ne_nil, getLast?_below, dirText,
    List.getLast?_eq_getLast_of_ne_nil hne]
  rfl

theorem ofDir?_above_holder (h : Placed place t) :
    Names.ofDir? ((namingPath place.getLast? t).parent?.bind Path.parent?) =
      if t.names.length = 1 then none
      else some (dirText (place ++ t.names.dropLast.dropLast)) := by
  rw [Names.ofDir?_grandparent_of_names (components_namingPath h),
    List.dropLast_append_of_ne_nil h.names_ne_nil]
  split
  · rename_i hone
    obtain ⟨file, hfile⟩ := List.length_eq_one_iff.1 hone
    rw [hfile]
    cases place.getLast? <;> rfl
  · rename_i hmore
    have hholder : t.names.dropLast ≠ [] := by
      have hlen := List.length_pos_iff.2 h.names_ne_nil
      rw [← List.length_pos_iff, List.length_dropLast]
      omega
    have hne : place ++ t.names.dropLast.dropLast ≠ [] := by simp [h.place_ne_nil]
    rw [List.dropLast_append_of_ne_nil hholder, getLast?_below, dirText,
      List.getLast?_eq_getLast_of_ne_nil hne]
    rfl

theorem namesOf_eq (h : Placed place t) :
    namesOf place t =
      if Nameless t then .error (.unresolvable (namingPath place.getLast? t).display .part)
      else .ok ⟨partName place t, componentName place t⟩ := by
  have hpart : (directivesOf t).part = declared? .part t := slot_directivesOf .part t
  have hcomponent : (directivesOf t).component = declared? .component t :=
    slot_directivesOf .component t
  have hfound : (declared? .component t <|> some (dirText (place ++ t.names.dropLast))) =
      some (componentName place t) := by
    unfold componentName
    cases declared? .component t <;> rfl
  simp only [namesOf, Names.resolve, hpart, hcomponent, ofDir?_holder h, ofDir?_above_holder h,
    hfound]
  by_cases hnameless : Nameless t
  · obtain ⟨hone, hnone⟩ := hnameless
    rw [if_pos hone, hnone, if_pos ⟨hone, hnone⟩]
    rfl
  · have habove : (declared? .part t <|> if t.names.length = 1 then none
        else some (dirText (place ++ t.names.dropLast.dropLast))) = some (partName place t) := by
      unfold partName
      cases hdeclared : declared? .part t with
      | some name => rfl
      | none =>
        rw [if_neg fun hone => hnameless ⟨hone, hdeclared⟩]
        rfl
    rw [habove, if_neg hnameless]

theorem readRecord_eq_ok (h : Placed place t) {r : Record} :
    (readRecord place t).result = .ok r ↔
      (Readable place t ∧ ¬ Nameless t) ∧ r = recordAt place t := by
  by_cases hread : Readable place t
  · have hnames := namesOf_eq h
    by_cases hnameless : Nameless t
    · rw [if_pos hnameless] at hnames
      simp [readRecord_of_unnamed hread hnames, hnameless]
    · rw [if_neg hnameless] at hnames
      simp only [readRecord_of_named hread hnames, Except.ok.injEq, hread, hnameless,
        not_false_eq_true, and_self, true_and]
      exact eq_comm
  · simp [readRecord_of_not_readable hread, hread]

/-- What a template that is nameless is told to be. -/
def namelessFailure (place : List Name) (t : Template) : Failure :=
  .unresolvable (namingPath place.getLast? t).display .part

theorem readRecord_eq_unresolvable (h : Placed place t) {path axis ancestor : String} :
    (readRecord place t).result = .error (.unresolvableName path axis ancestor) ↔
      Readable place t ∧ Nameless t ∧
        .unresolvableName path axis ancestor = namelessFailure place t := by
  by_cases hread : Readable place t
  · have hnames := namesOf_eq h
    by_cases hnameless : Nameless t
    · rw [if_pos hnameless] at hnames
      simp only [readRecord_of_unnamed hread hnames, Except.error.injEq, hread, hnameless, true_and]
      exact eq_comm
    · rw [if_neg hnameless] at hnames
      simp [readRecord_of_named hread hnames, hnameless]
  · simp [readRecord_of_not_readable hread, hread, readFailure]

theorem display_namingPath {file : Name} (hne : place ≠ []) (hfile : t.names = [file]) :
    (namingPath place.getLast? t).display = dirText place ++ "/" ++ ofOctets file := by
  rw [dirText, List.getLast?_eq_getLast_of_ne_nil hne, namingPath, hfile]
  exact ofOctets_slash ..

/-! ## The run -/

theorem manifest_of_generate_ok {g : Generated} (h : (generate fs s).result = .ok g) :
    ∃ place ts rs, Found fs s place ts ∧ readings place ts = (rs, none) ∧
      g.manifest = (feed s.exitOnError rs).finish := by
  obtain ⟨place, ts, hfound, hbuild⟩ := found_of_result h nofun nofun
  obtain ⟨-, hnone, rfl⟩ := build_ok hbuild
  exact ⟨place, ts, (readings place ts).1, hfound, Prod.ext rfl hnone, rfl⟩

/-- A run that cannot name a template has met it before it could end for another reason. -/
theorem generate_eq_unresolvable {path axis ancestor : String} :
    (generate fs s).result = .error (.unresolvableName path axis ancestor) ↔
      ∃ place front t back before, Found fs s place (front ++ t :: back) ∧
        readings place front = (before, none) ∧
        (s.exitOnError = true → contestedPlaces before = []) ∧
        (readRecord place t).result = .error (.unresolvableName path axis ancestor) := by
  constructor
  · intro h
    obtain ⟨place, ts, hfound, hbuild⟩ := found_of_result h nofun nofun
    rcases build_error hbuild with ⟨hgo, hstop⟩ | ⟨-, r, more, -, hconflict⟩
    · obtain ⟨front, t, back, rfl, hfront, hread⟩ := readings_eq_error (Prod.ext rfl hstop)
      exact ⟨place, front, t, back, _, hfound, hfront, fun e => starting_eq_nil.1 (hgo e), hread⟩
    · cases hconflict
  · rintro ⟨place, front, t, back, before, hfound, hfront, hquiet, hread⟩
    have hreadings := readings_append_error hfront hread back
    have hgo : s.exitOnError = true →
        starting [] (readings place (front ++ t :: back)).1 = [] := fun e => by
      rw [hreadings]
      exact starting_eq_nil.2 (hquiet e)
    rw [generate_of_found hfound, Traced.after, (build_goes_on place hgo).1, hreadings]
    rfl

/-- The template `t` is the first that a run cannot name: those before it can be read and named,
and in a strict run their records contest nothing. -/
def FirstNameless (fs : FileSystem) (s : Settings) (place : List Name) (t : Template) : Prop :=
  ∃ front back, Found fs s place (front ++ t :: back) ∧
    (∀ x ∈ front, Readable place x ∧ ¬ Nameless x) ∧
    (s.exitOnError = true → contestedPlaces (front.map (recordAt place)) = []) ∧
    Readable place t ∧ Nameless t

theorem Found.readRecord_eq_ok (hx : fs.root.Valid) (hroot : locate fs s.referenceDir ≠ .ok [])
    (h : Found fs s place ts) :
    ∀ t ∈ ts, ∀ r, (readRecord place t).result = .ok r ↔
      (Readable place t ∧ ¬ Nameless t) ∧ r = recordAt place t :=
  fun _ ht _ => Generation.readRecord_eq_ok (h.placed hx hroot ht)

theorem Found.names_ne_empty (hx : fs.root.Valid) (hroot : locate fs s.referenceDir ≠ .ok [])
    (h : Found fs s place ts) (strict : Bool) :
    ∀ p ∈ (feed strict (ts.map (recordAt place))).finish.parts,
      p.name ≠ "" ∧ ∀ c ∈ p.components, c.name ≠ "" := by
  intro p hp
  obtain ⟨⟨r, hr, hpart⟩, hcomponents⟩ := exists_record_of_name hp
  refine ⟨?_, fun c hc => ?_⟩
  · obtain ⟨t, ht, rfl⟩ := List.mem_map.1 hr
    rw [← hpart]
    exact partName_ne_empty (h.placed hx hroot ht)
  · obtain ⟨r, hr, hcomponent⟩ := hcomponents c hc
    obtain ⟨t, ht, rfl⟩ := List.mem_map.1 hr
    rw [← hcomponent]
    exact componentName_ne_empty (h.placed hx hroot ht)

/-- A run fails for want of a name exactly at the first nameless template. -/
theorem generate_eq_nameless (hx : fs.root.Valid) (hroot : locate fs s.referenceDir ≠ .ok [])
    {path axis ancestor : String} :
    (generate fs s).result = .error (.unresolvableName path axis ancestor) ↔
      ∃ place t, FirstNameless fs s place t ∧
        .unresolvableName path axis ancestor = namelessFailure place t := by
  rw [generate_eq_unresolvable]
  constructor
  · rintro ⟨place, front, t, back, before, hfound, hfront, hquiet, hfails⟩
    have hplaced : Placed place t := hfound.placed hx hroot (by simp)
    have hread := hfound.readRecord_eq_ok hx hroot
    obtain ⟨hall, rfl⟩ := (readings_eq_ok fun x hx => hread x (by simp [hx])).1 hfront
    obtain ⟨hreadable, hnameless, hfailure⟩ := (readRecord_eq_unresolvable hplaced).1 hfails
    exact ⟨place, t, ⟨front, back, hfound, hall, hquiet, hreadable, hnameless⟩, hfailure⟩
  · rintro ⟨place, t, ⟨front, back, hfound, hall, hquiet, hreadable, hnameless⟩, hfailure⟩
    have hplaced : Placed place t := hfound.placed hx hroot (by simp)
    have hread := hfound.readRecord_eq_ok hx hroot
    have hfront := (readings_eq_ok fun x hx => hread x (by simp [hx])).2 ⟨hall, rfl⟩
    exact ⟨place, front, t, back, _, hfound, hfront, hquiet,
      (readRecord_eq_unresolvable hplaced).2 ⟨hreadable, hnameless, hfailure⟩⟩

theorem FirstNameless.failure (hroot : locate fs s.referenceDir ≠ .ok [])
    (h : FirstNameless fs s place t) : ∃ file, t.names = [file] ∧
      namelessFailure place t =
        .unresolvableName (dirText place ++ "/" ++ ofOctets file) "part" "grandparent" := by
  obtain ⟨front, back, hfound, -, -, -, hnameless⟩ := h
  obtain ⟨file, hfile⟩ := List.length_eq_one_iff.1 hnameless.1
  refine ⟨file, hfile, ?_⟩
  rw [namelessFailure, display_namingPath (hfound.place_ne_nil hroot) hfile]
  rfl

/-- What templates are filed under, for a reference directory that is not the root. A template
that can be read has its record unless it is nameless. A run that succeeds has filed each template
under its part and its component, and no name is empty. A run fails for want of a name exactly if
it comes to a template in the reference directory itself that declares no part, and the failure
tells that its part has no grandparent to be named after. -/
theorem generate_names (hx : fs.root.Valid) (hroot : locate fs s.referenceDir ≠ .ok []) :
    (∀ place ts, Found fs s place ts → ∀ t ∈ ts,
      (∀ r, (readRecord place t).result = .ok r ↔
        (Readable place t ∧ ¬ Nameless t) ∧ r = recordAt place t) ∧
      partName place t ≠ "" ∧ componentName place t ≠ "") ∧
    (∀ g, (generate fs s).result = .ok g → ∃ place ts, Found fs s place ts ∧
      g.manifest = (feed s.exitOnError (ts.map (recordAt place))).finish ∧
      (∀ t ∈ ts, ¬ Nameless t ∧ ∃ p c, g.manifest.part? (partName place t) = some p ∧
        p.component? (componentName place t) = some c ∧ t.id ∈ c.templatePaths) ∧
      ∀ p ∈ g.manifest.parts, p.name ≠ "" ∧ ∀ c ∈ p.components, c.name ≠ "") ∧
    ∀ path axis ancestor,
      (generate fs s).result = .error (.unresolvableName path axis ancestor) ↔
        axis = "part" ∧ ancestor = "grandparent" ∧ ∃ place t file, FirstNameless fs s place t ∧
          t.names = [file] ∧ path = dirText place ++ "/" ++ ofOctets file := by
  refine ⟨fun place ts h t ht => ⟨h.readRecord_eq_ok hx hroot t ht,
    partName_ne_empty (h.placed hx hroot ht), componentName_ne_empty (h.placed hx hroot ht)⟩,
    fun g hg => ?_, fun path axis ancestor => ?_⟩
  · obtain ⟨place, ts, rs, hfound, hreadings, hmanifest⟩ := manifest_of_generate_ok hg
    obtain ⟨hall, rfl⟩ := (readings_eq_ok (hfound.readRecord_eq_ok hx hroot)).1 hreadings
    rw [hmanifest]
    refine ⟨place, ts, hfound, rfl, fun t ht => ⟨(hall t ht).2, ?_⟩,
      hfound.names_ne_empty hx hroot _⟩
    obtain ⟨p, c, -, hp, -, hc, hid⟩ :=
      lookup_record s.exitOnError (List.mem_map_of_mem (f := recordAt place) ht)
    exact ⟨p, c, hp, hc, hid⟩
  · rw [generate_eq_nameless hx hroot]
    constructor
    · rintro ⟨place, t, hfirst, hfailure⟩
      obtain ⟨file, hfile, hnameless⟩ := hfirst.failure hroot
      rw [hnameless] at hfailure
      cases hfailure
      exact ⟨rfl, rfl, place, t, file, hfirst, hfile, rfl⟩
    · rintro ⟨rfl, rfl, place, t, file, hfirst, hfile, rfl⟩
      obtain ⟨file', hfile', hnameless⟩ := hfirst.failure hroot
      rw [hfile] at hfile'
      cases hfile'
      exact ⟨place, t, hfirst, hnameless.symm⟩

section TopLevel

/-- A template two levels down that declares its component, and one in the reference directory
itself that declares nothing. -/
def topLevelEntries : List (Name × Node) :=
  [(toOctets "core", .dir [(toOctets "a.yaml", .file (toOctets "# cluster-compare-component: x"))]),
    (toOctets "top.yaml", .file [])]

def topLevelDisk : FileSystem :=
  ⟨.dir [(toOctets "ref", .dir topLevelEntries)], [toOctets "ref"]⟩

def topLevelSettings : Settings := ⟨Path.ofString ".", true, .yaml, ⟨[]⟩, []⟩

def deepTemplate : Template :=
  ⟨[toOctets "core", toOctets "a.yaml"], toOctets "# cluster-compare-component: x"⟩

def topTemplate : Template := ⟨[toOctets "top.yaml"], []⟩

theorem generate_names_top_level :
    topLevelDisk.root.Valid ∧ locate topLevelDisk topLevelSettings.referenceDir ≠ .ok [] ∧
      (generate topLevelDisk topLevelSettings).result =
        .error (.unresolvableName "ref/top.yaml" "part" "grandparent") := by
  have hvalid : topLevelDisk.root.Valid := by decide
  have hlocate : locate topLevelDisk topLevelSettings.referenceDir = .ok [toOctets "ref"] := rfl
  have hroot : locate topLevelDisk topLevelSettings.referenceDir ≠ .ok [] := by
    rw [hlocate]
    simp
  have hlisted : (Discovery.discover topLevelDisk (Path.ofRoot [toOctets "ref"])
      topLevelSettings.excludes (canonicalSkips topLevelDisk topLevelSettings.skipPaths)).result =
        .ok ([deepTemplate] ++ topTemplate :: []) := rfl
  have hdeep : Readable [toOctets "ref"] deepTemplate := rfl
  have htop : Readable [toOctets "ref"] topTemplate := rfl
  have hpath : "ref/top.yaml" =
      dirText [toOctets "ref"] ++ "/" ++ ofOctets (toOctets "top.yaml") := rfl
  have hnone : declared? .part topTemplate = none := rfl
  have hquiet : contestedPlaces ([deepTemplate].map (recordAt [toOctets "ref"])) = [] := rfl
  obtain ⟨-, -, hfails⟩ := generate_names hvalid hroot
  have hfirst : FirstNameless topLevelDisk topLevelSettings [toOctets "ref"] topTemplate := by
    refine ⟨[deepTemplate], [], ⟨hlocate, hlisted⟩, ?_, fun _ => hquiet, htop, rfl, hnone⟩
    rw [List.forall_mem_singleton]
    exact ⟨hdeep, fun h => absurd h.1 (by decide)⟩
  exact ⟨hvalid, hroot, (hfails _ _ _).2 ⟨rfl, rfl, _, _, _, hfirst, rfl, hpath⟩⟩

end TopLevel
end Generation
end RefManifest
