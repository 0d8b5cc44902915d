import Mathlib.Data.List.Permutation
import RefManifest.Proofs.CommandLine.Layers
import RefManifest.Proofs.Disk.Spelling
import RefManifest.Proofs.Run
import RefManifest.Proofs.Toml.Tree

/-!
# RefManifest.Proofs.Config

What is loaded from a configuration file.

A `Place` is a key of the file with the kind of value that stands under it, and the part of the
configuration that holds the value. A value changes its own place and no other, and each key comes
once, so every place ends up with what the table says under its key (`Place.get_of_stated`), in
whichever order the keys are looked at. A key without a place is a fault wherever it stands
(`setFields_unknown`).

The output path is meant from the directory of the file. There is one, since a path without a parent
leads to a directory and cannot be read. So what is loaded is what the file states, and the place of
the manifest is fixed by the file alone (`load_settings`).
-/

namespace RefManifest

open Toml

namespace Config

variable {c c' : Config} {name : String} {v : Value} {t : Table} {α β : Type}

/-- The keys that a configuration file may hold. -/
def keys : List String := ["exclude", "exit-on-error", "output", "format"]

theorem setField_unknown (h : name ∉ keys) (c : Config) (v : Value) :
    ∃ reason, setField c name v = .error reason := by
  simp only [keys, List.mem_cons, List.not_mem_nil, or_false, not_or] at h
  obtain ⟨hexclude, hexit, houtput, hformat⟩ := h
  rw [setField, if_neg hexclude, if_neg hexit, if_neg houtput, if_neg hformat]
  exact ⟨_, rfl⟩

/-- Taking in a key changes the place of the key and no other. -/
theorem setField_others (h : setField c name v = .ok c') :
    (name ≠ "exclude" → c'.exclude = c.exclude) ∧
      (name ≠ "exit-on-error" → c'.exitOnError = c.exitOnError) ∧
      (name ≠ "output" → c'.output = c.output) ∧
      (name ≠ "format" → c'.format = c.format) := by
  unfold setField at h
  split at h
  · obtain ⟨x, -, rfl⟩ := exists_of_map h
    simp [*]
  · split at h
    · obtain ⟨x, -, rfl⟩ := exists_of_map h
      simp [*]
    · split at h
      · obtain ⟨x, -, rfl⟩ := exists_of_map h
        simp [*]
      · split at h
        · obtain ⟨x, -, rfl⟩ := exists_of_map h
          simp [*]
        · cases h

/-- A key of the file: how a value of its kind is written, and where the configuration holds it. -/
structure Place (α β : Type) where
  key : String
  write : α → Value
  get : Config → β
  hold : α → β
  set_self : ∀ c x, ∃ c', setField c key (write x) = .ok c' ∧ get c' = hold x
  set_other : ∀ {c c' name v}, name ≠ key → setField c name v = .ok c' → get c' = get c

theorem readStrings_map (globs : List String) :
    readStrings (globs.map fun g => .string g.toList) = .ok globs := by
  induction globs with
  | nil => rfl
  | cons g globs ih => simp [readStrings, readString, ih]

namespace Place

def exclude : Place (List String) (List String) where
  key := "exclude"
  write := fun globs => .array (globs.map fun g => .string g.toList)
  get := Config.exclude
  hold := fun globs => globs
  set_self := by
    intro c globs
    refine ⟨{ c with exclude := globs }, ?_, rfl⟩
    simp [setField, readList, readStrings_map, Except.map]
  set_other := fun hname h => (setField_others h).1 hname

def exitOnError : Place Bool (Option Bool) where
  key := "exit-on-error"
  write := .boolean
  get := Config.exitOnError
  hold := some
  set_self := by
    intro c b
    exact ⟨{ c with exitOnError := some b }, rfl, rfl⟩
  set_other := fun hname h => (setField_others h).2.1 hname

def output : Place String (Option Path) where
  key := "output"
  write := fun o => .string o.toList
  get := Config.output
  hold := fun o => some (Path.ofString o)
  set_self := by
    intro c o
    refine ⟨{ c with output := some (Path.ofString o) }, ?_, rfl⟩
    simp [setField, readString, Except.map]
  set_other := fun hname h => (setField_others h).2.2.1 hname

def format : Place Format (Option Format) where
  key := "format"
  write := fun f => .string f.label.toList
  get := Config.format
  hold := some
  set_self := by
    intro c f
    refine ⟨{ c with format := some f }, ?_, rfl⟩
    cases f <;> rfl
  set_other := fun hname h => (setField_others h).2.2.2 hname

end Place

theorem setFields_cons_eq_ok {e : List Char × Value} (h : setFields c (e :: t) = .ok c') :
    ∃ c₁, setField c (String.ofList e.1) e.2 = .ok c₁ ∧ setFields c₁ t = .ok c' := by
  rw [setFields] at h
  split at h
  · cases h
  · rename_i c₁ hset
    exact ⟨c₁, hset, h⟩

/-- A key that is not known is a fault, whatever is under it and the other keys. -/
theorem setFields_unknown (h : ∃ e ∈ t, String.ofList e.1 ∉ keys) (c : Config) :
    ∃ reason, setFields c t = .error reason := by
  induction t generalizing c with
  | nil => simp at h
  | cons e t ih =>
    obtain ⟨key, v⟩ := e
    rw [setFields]
    cases hset : setField c (String.ofList key) v with
    | error reason => exact ⟨reason, rfl⟩
    | ok c₁ =>
      obtain ⟨e, he, hunknown⟩ := h
      rcases List.mem_cons.1 he with rfl | he
      · obtain ⟨reason, hreason⟩ := setField_unknown hunknown c v
        cases hset.symm.trans hreason
      · exact ih ⟨e, he, hunknown⟩ c₁

theorem setFields_ok (h : ∀ e ∈ t, ∀ c, ∃ c', setField c (String.ofList e.1) e.2 = .ok c')
    (c : Config) : ∃ c', setFields c t = .ok c' := by
  induction t generalizing c with
  | nil => exact ⟨c, rfl⟩
  | cons e t ih =>
    obtain ⟨key, v⟩ := e
    obtain ⟨⟨c₁, hset⟩, hrest⟩ := And.imp_left (· c) (List.forall_mem_cons.1 h)
    rw [setFields, hset]
    exact ih hrest c₁

namespace Place

variable {P : Place α β} {x : Option α}

theorem get_setFields_other (h : setFields c t = .ok c') (hkey : P.key.toList ∉ t.map (·.1)) :
    P.get c' = P.get c := by
  induction t generalizing c with
  | nil =>
    cases h
    rfl
  | cons e t ih =>
    obtain ⟨c₁, hset, hrest⟩ := setFields_cons_eq_ok h
    rw [List.map_cons, List.mem_cons, not_or] at hkey
    have hother : String.ofList e.1 ≠ P.key := by
      intro heq
      exact hkey.1 (by rw [← heq, String.toList_ofList])
    rw [ih hrest hkey.2, P.set_other hother hset]

theorem get_setFields_self (ht : Distinct t) (h : setFields c t = .ok c') {x : α}
    (hx : (P.key.toList, P.write x) ∈ t) : P.get c' = P.hold x := by
  induction t generalizing c with
  | nil => cases hx
  | cons e t ih =>
    obtain ⟨c₁, hset, hrest⟩ := setFields_cons_eq_ok h
    obtain ⟨hkey, hdistinct⟩ := List.nodup_cons.1 ht
    rcases List.mem_cons.1 hx with rfl | hx
    · rw [String.ofList_toList] at hset
      obtain ⟨c₂, hwritten, hget⟩ := P.set_self c x
      cases hset.symm.trans hwritten
      -- The key does not come again.
      rw [get_setFields_other hrest hkey, hget]
    · exact ih hdistinct hrest hx

theorem get_of_stated (ht : Distinct t) (h : setFields c t = .ok c')
    (hstated : t.lookup P.key.toList = x.map P.write) : P.get c' = x.elim (P.get c) P.hold := by
  cases x with
  | some x => exact get_setFields_self ht h (Disk.Node.mem_of_lookup hstated)
  | none =>
    refine get_setFields_other h ?_
    intro hmem
    obtain ⟨e, he, heq⟩ := List.mem_map.1 hmem
    have habsent := List.lookup_eq_none_iff.1 hstated e he
    simp [heq] at habsent

theorem accepts (ht : Distinct t) (hstated : t.lookup P.key.toList = x.map P.write)
    (hv : (P.key.toList, v) ∈ t) (c : Config) : ∃ c', setField c P.key v = .ok c' := by
  rw [(Disk.Node.lookup_eq_some_iff_mem ht).2 hv] at hstated
  obtain ⟨x, -, rfl⟩ := Option.map_eq_some_iff.1 hstated.symm
  obtain ⟨c', hset, -⟩ := P.set_self c x
  exact ⟨c', hset⟩

end Place

/-! ## Tables -/

theorem sortKeys_perm (t : Table) : (sortKeys t).Perm t := List.mergeSort_perm _ _

theorem distinct_sortKeys (ht : Distinct t) : Distinct (sortKeys t) :=
  ((sortKeys_perm t).map _).nodup_iff.2 ht

theorem lookup_sortKeys (ht : Distinct t) (key : List Char) :
    (sortKeys t).lookup key = t.lookup key := by
  apply Option.ext
  intro v
  rw [Disk.Node.lookup_eq_some_iff_mem ht,
    Disk.Node.lookup_eq_some_iff_mem (distinct_sortKeys ht), (sortKeys_perm t).mem_iff]

/-- The settings as a table states them, as far as it does. -/
structure Stated where
  exclude : Option (List String) := none
  exitOnError : Option Bool := none
  output : Option String := none
  format : Option Format := none

/-- The table has known keys only, and under these it states the settings: patterns as an array of
strings, a boolean, the output as a string and the format by its name. -/
structure States (t : Table) (s : Stated) : Prop where
  known : ∀ e ∈ t, String.ofList e.1 ∈ keys
  exclude : t.lookup "exclude".toList =
    s.exclude.map fun globs => .array (globs.map fun g => .string g.toList)
  exitOnError : t.lookup "exit-on-error".toList = s.exitOnError.map .boolean
  output : t.lookup "output".toList = s.output.map fun o => .string o.toList
  format : t.lookup "format".toList = s.format.map fun f => .string f.label.toList

variable {s : Stated}

theorem States.sortKeys (h : States t s) (ht : Distinct t) : States (sortKeys t) s where
  known := fun e he => h.known e ((sortKeys_perm t).mem_iff.1 he)
  exclude := (lookup_sortKeys ht _).trans h.exclude
  exitOnError := (lookup_sortKeys ht _).trans h.exitOnError
  output := (lookup_sortKeys ht _).trans h.output
  format := (lookup_sortKeys ht _).trans h.format

theorem States.accepted (h : States t s) (ht : Distinct t) :
    ∀ e ∈ t, ∀ c, ∃ c', setField c (String.ofList e.1) e.2 = .ok c' := by
  rintro ⟨key, v⟩ he c
  have hkey : key = (String.ofList key).toList := String.toList_ofList.symm
  have hknown := h.known _ he
  simp only [keys, List.mem_cons, List.not_mem_nil, or_false] at hknown
  rw [hkey] at he
  rcases hknown with hname | hname | hname | hname <;> simp only [hname] at he ⊢
  · exact Place.exclude.accepts ht h.exclude he c
  · exact Place.exitOnError.accepts ht h.exitOnError he c
  · exact Place.output.accepts ht h.output he c
  · exact Place.format.accepts ht h.format he c

/-- A table is read as it states the settings. -/
theorem ofTable_of_states (ht : Distinct t) (h : States t s) :
    ofTable t = .ok ⟨s.exclude.getD [], s.exitOnError, s.output.map Path.ofString, s.format⟩ := by
  have ht' := distinct_sortKeys ht
  have h' := h.sortKeys ht
  obtain ⟨c, hset⟩ := setFields_ok (h'.accepted ht') {}
  have hexclude : c.exclude = s.exclude.getD [] := by
    rw [show c.exclude = _ from Place.exclude.get_of_stated ht' hset h'.exclude]
    cases s.exclude <;> rfl
  have hexit : c.exitOnError = s.exitOnError := by
    rw [show c.exitOnError = _ from Place.exitOnError.get_of_stated ht' hset h'.exitOnError]
    cases s.exitOnError <;> rfl
  have houtput : c.output = s.output.map Path.ofString := by
    rw [show c.output = _ from Place.output.get_of_stated ht' hset h'.output]
    cases s.output <;> rfl
  have hformat : c.format = s.format := by
    rw [show c.format = _ from Place.format.get_of_stated ht' hset h'.format]
    cases s.format <;> rfl
  rw [ofTable, hset, ← hexclude, ← hexit, ← houtput, ← hformat]

theorem ofTable_unknown (h : ∃ e ∈ t, String.ofList e.1 ∉ keys) :
    ∃ reason, ofTable t = .error reason := by
  obtain ⟨e, he, hunknown⟩ := h
  exact setFields_unknown ⟨e, (sortKeys_perm t).mem_iff.2 he, hunknown⟩ {}

variable {fs : FileSystem} {file dir : Path} {text : String}

/-- The output path that a file in `dir` names. -/
def meantFrom (dir : Path) (o : String) : Path :=
  if (Path.ofString o).isAbsolute then Path.ofString o else dir.join (Path.ofString o)

/-- The configuration that a file in `dir` states. -/
def Stated.config (s : Stated) (dir : Path) : Config where
  exclude := s.exclude.getD []
  exitOnError := s.exitOnError
  output := s.output.map (meantFrom dir)
  format := s.format

theorem load_of_parse (hread : fs.readText file = .ok text)
    (hparse : Toml.parse? text.toList = some t) :
    load fs file =
      match ofTable t with
      | .error reason => .error (.configParse file.display reason)
      | .ok c =>
        ⟨[loadedNotice file], .ok { c with output := c.output.map (outputFrom file) }⟩ := by
  simp only [load, hread, ofText, hparse]
  cases ofTable t <;> rfl

theorem load_unknown (hread : fs.readText file = .ok text)
    (hparse : Toml.parse? text.toList = some t) (h : ∃ e ∈ t, String.ofList e.1 ∉ keys) :
    ∃ reason, load fs file = .error (.configParse file.display reason) := by
  obtain ⟨reason, hreason⟩ := ofTable_unknown h
  exact ⟨reason, by rw [load_of_parse hread hparse, hreason]⟩

theorem load_of_states (hread : fs.readText file = .ok text)
    (hparse : Toml.parse? text.toList = some t) (h : States t s)
    (hparent : file.parent? = some dir) :
    load fs file = ⟨[loadedNotice file], .ok (s.config dir)⟩ := by
  have hmeant : outputFrom file ∘ Path.ofString = meantFrom dir := by
    funext o
    rw [Function.comp_apply, outputFrom, hparent, meantFrom]
  rw [load_of_parse hread hparse, ofTable_of_states (distinct_of_parse? hparse) h]
  simp only [Option.map_map, hmeant]
  rfl

/-- No setting of a configuration file is ignored or put in another place. A table with a key that
is not known is refused, whatever the other keys hold, and the failure names the file. A table with
known keys and values of their kinds is loaded as it stands: what is absent is the default, and an
output path that is not absolute is meant from the directory of the file. So the manifest is written
there, whatever the reference directory, unless the command line or the environment has another
path. -/
theorem load_settings (hread : fs.readText file = .ok text)
    (hparse : Toml.parse? text.toList = some t) :
    ((∃ e ∈ t, String.ofList e.1 ∉ keys) →
      ∃ reason, load fs file = .error (.configParse file.display reason)) ∧
    ∀ s, States t s →
      ∃ dir, file.parent? = some dir ∧ dir.components = file.components.dropLast ∧
        load fs file = ⟨[loadedNotice file], .ok (s.config dir)⟩ ∧
        ∀ o, s.output = some o → ∀ (args : ReferenceArgs) configPath plan, args.output = none →
          args.resolve (s.config dir) configPath = .ok plan → plan.output = meantFrom dir o := by
  refine ⟨load_unknown hread hparse, ?_⟩
  intro s hstates
  obtain ⟨dir, hparent⟩ := FileSystem.exists_parent_of_read (FileSystem.readText_eq_ok.1 hread)
  refine ⟨dir, hparent, Path.components_parent hparent,
    load_of_states hread hparse hstates hparent, ?_⟩
  intro o ho args configPath plan hargs hplan
  obtain ⟨-, -, -, houtput⟩ := ReferenceArgs.chosen_of_resolve hplan
  rw [houtput, hargs, Stated.config, ho]
  rfl

section Example

def confFile : Path := Path.ofString "conf/ccmeta.toml"

/-- A file system with a configuration file. -/
def confDisk (content : Text.Octets) : FileSystem :=
  ⟨.dir [(Text.toOctets "conf", .dir [(Text.toOctets "ccmeta.toml", .file content)])], []⟩

theorem readText_confDisk (text : String) :
    (confDisk (Text.toOctets text)).readText confFile = .ok text := by
  have hread : ∀ content, (confDisk content).read confFile = .ok content := by
    intro content
    rfl
  exact FileSystem.readText_eq_ok.2 (hread _)

/-- Three settings, out of the order of the keys. -/
def statingText : String := "output = 'out.yml'\nformat = 'json'\nexclude = ['*.md']"

def statingTable : Table :=
  [("output".toList, .string "out.yml".toList), ("format".toList, .string "json".toList),
    ("exclude".toList, .array [.string "*.md".toList])]

def statedSettings : Stated :=
  { exclude := some ["*.md"], output := some "out.yml", format := some .json }

/-- A misspelled key behind a value of the wrong kind. -/
def misspelledText : String := "exclude = 'a'\nexit_on_error = true"

theorem load_settings_conf :
    load (confDisk (Text.toOctets statingText)) confFile =
      ⟨[loadedNotice confFile],
        .ok ⟨["*.md"], none, some (Path.ofString "conf/out.yml"), some .json⟩⟩ ∧
    (∃ plan, ReferenceArgs.resolve ⟨Path.ofString "refs", none, none, none, []⟩
        ⟨["*.md"], none, some (Path.ofString "conf/out.yml"), some .json⟩ none = .ok plan ∧
      plan.output = Path.ofString "conf/out.yml") ∧
    ∃ reason, load (confDisk (Text.toOctets misspelledText)) confFile =
      .error (.configParse "conf/ccmeta.toml" reason) := by
  have hstatedPairs : statements? (statingText.toList.length + 1) statingText.toList =
      some (statingTable.map fun e => ([e.1], e.2), []) := by cbv
  have hmark : dropMark statingText.toList = statingText.toList := rfl
  have hstating : Toml.parse? statingText.toList = some statingTable :=
    parse?_of_pairs hmark hstatedPairs rfl
  have hmisspelledPairs : statements? (misspelledText.toList.length + 1) misspelledText.toList =
      some ([(["exclude".toList], .string ['a']), (["exit_on_error".toList], .boolean true)], []) := by
    cbv
  have hmark' : dropMark misspelledText.toList = misspelledText.toList := rfl
  have hmisspelled : Toml.parse? misspelledText.toList =
      some [("exclude".toList, .string ['a']), ("exit_on_error".toList, .boolean true)] :=
    parse?_of_pairs hmark' hmisspelledPairs rfl
  have hstates : States statingTable statedSettings := ⟨by decide, rfl, rfl, rfl, rfl⟩
  obtain ⟨dir, hdir, -, hload, hnamed⟩ :=
    (load_settings (readText_confDisk statingText) hstating).2 _ hstates
  have hparent : confFile.parent? = some (Path.ofString "conf") := by decide
  cases hdir.symm.trans hparent
  have hconfig : statedSettings.config (Path.ofString "conf") =
      ⟨["*.md"], none, some (Path.ofString "conf/out.yml"), some .json⟩ := by decide
  have hout : meantFrom (Path.ofString "conf") "out.yml" = Path.ofString "conf/out.yml" := by decide
  rw [hconfig] at hload hnamed
  obtain ⟨plan, hplan⟩ : ∃ plan, ReferenceArgs.resolve
      ⟨Path.ofString "refs", none, none, none, []⟩
      ⟨["*.md"], none, some (Path.ofString "conf/out.yml"), some .json⟩ none = .ok plan :=
    ⟨_, rfl⟩
  refine ⟨hload, ⟨plan, hplan, (hnamed _ rfl _ none plan rfl hplan).trans hout⟩, ?_⟩
  exact (load_settings (readText_confDisk misspelledText) hmisspelled).1
    ⟨_, List.mem_cons_of_mem _ (List.mem_cons_self ..), by decide⟩

end Example

end Config
end RefManifest
