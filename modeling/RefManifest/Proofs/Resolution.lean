import RefManifest.Proofs.Parent

/-!
# RefManifest.Proofs.Resolution

What names a path resolves to, on every path.

A name is supplied by its directive, or by the path: the component by the last component but one of
the path, the part by the last but two, if these are names (`Supplied`). How the path is spelled is
of no account, since its components leave slashes and dots out (`Path.components_eq`). The component
is looked for first, so it is the one that is told if both are missing (`resolve_exact`).
-/

namespace RefManifest

namespace Path

variable {cs : List Component} {k : Nat} {x : Name}

/-- Counted from the end, component number `k` is the name `x`. -/
def NameFromEnd (cs : List Component) (k : Nat) (x : Name) : Prop :=
  k ≤ cs.length ∧ cs[cs.length - k]? = some (.name x)

theorem Component.name?_eq_some {c : Component} : c.name? = some x ↔ c = .name x := by
  cases c <;> simp [Component.name?]

theorem nameFromEnd_one : NameFromEnd cs 1 x ↔ cs.getLast?.bind Component.name? = some x := by
  simp only [Option.bind_eq_some_iff, Component.name?_eq_some, exists_eq_right,
    List.getLast?_eq_getElem?, NameFromEnd]
  refine ⟨And.right, fun h => ⟨?_, h⟩⟩
  have hlt := (List.getElem?_eq_some_iff.1 h).1
  omega

theorem nameFromEnd_succ (hk : 1 ≤ k) : NameFromEnd cs (k + 1) x ↔ NameFromEnd cs.dropLast k x := by
  simp only [NameFromEnd, List.length_dropLast, List.getElem?_dropLast]
  constructor
  · rintro ⟨hlen, hx⟩
    rw [if_pos (by omega), Nat.sub_sub, Nat.add_comm 1 k]
    exact ⟨by omega, hx⟩
  · rintro ⟨hlen, hx⟩
    split at hx
    · rw [Nat.sub_sub, Nat.add_comm 1 k] at hx
      exact ⟨by omega, hx⟩
    · cases hx

end Path

namespace Names

open RefManifest.Path

variable {given : Option String} {p : Path} {k : Nat} {name : String}

/-- The name is given, or it is none and the path has one there, counted from the end. -/
def Supplied (given : Option String) (p : Path) (k : Nat) (name : String) : Prop :=
  given = some name ∨ given = none ∧ ∃ x, NameFromEnd p.components k x ∧ name = Text.ofOctets x

/-- A name is found if it is given, or if the path has a name there. -/
def Found (given : Option String) (p : Path) (k : Nat) : Prop :=
  given ≠ none ∨ ∃ x, NameFromEnd p.components k x

theorem found_iff : Found given p k ↔ ∃ name, Supplied given p k name := by
  cases given with
  | some g => simp [Found, Supplied]
  | none =>
    constructor
    · rintro (h | ⟨x, hx⟩)
      · exact absurd rfl h
      · exact ⟨_, .inr ⟨rfl, x, hx, rfl⟩⟩
    · rintro ⟨name, h | ⟨-, x, hx, -⟩⟩
      · cases h
      · exact .inr ⟨x, hx⟩

theorem orElse_eq_some {dir : Option Name}
    (hdir : ∀ x, dir = some x ↔ NameFromEnd p.components k x) :
    (given <|> dir.map Text.ofOctets) = some name ↔ Supplied given p k name := by
  cases given with
  | some g => simp [Supplied]
  | none => simp [Supplied, hdir, eq_comm]

theorem supplied_parent : (given <|> ofDir? p.parent?) = some name ↔ Supplied given p 2 name := by
  rw [ofDir?_parent]
  refine orElse_eq_some fun x => ?_
  rw [nameFromEnd_succ (by decide), nameFromEnd_one]

theorem supplied_grandparent :
    (given <|> ofDir? (p.parent?.bind Path.parent?)) = some name ↔ Supplied given p 3 name := by
  rw [ofDir?_grandparent]
  refine orElse_eq_some fun x => ?_
  rw [nameFromEnd_succ (by decide), nameFromEnd_succ (by decide), nameFromEnd_one]

theorem eq_none_iff_not_found {o : Option String}
    (h : ∀ name, o = some name ↔ Supplied given p k name) : o = none ↔ ¬ Found given p k := by
  rw [found_iff, Option.eq_none_iff_forall_ne_some, not_exists]
  exact forall_congr' fun name => not_congr (h name)

variable {part component : Option String} {names : Names} {f : Failure}

theorem resolve_eq_ok : resolve p part component = .ok names ↔
    Supplied component p 2 names.component ∧ Supplied part p 3 names.part := by
  rw [← supplied_parent, ← supplied_grandparent, resolve]
  obtain ⟨q, c⟩ := names
  cases component <|> ofDir? p.parent? with
  | none => simp
  | some c' =>
    cases part <|> ofDir? (p.parent?.bind Path.parent?) with
    | none => simp
    | some q' => simp [and_comm]

theorem resolve_eq_error : resolve p part component = .error f ↔
    ¬ Found component p 2 ∧ f = .unresolvable p.display .component ∨
      Found component p 2 ∧ ¬ Found part p 3 ∧ f = .unresolvable p.display .part := by
  rw [resolve]
  cases hc : component <|> ofDir? p.parent? with
  | none =>
    have hmissing := (eq_none_iff_not_found fun _ => supplied_parent).1 hc
    simp [hmissing, eq_comm]
  | some c =>
    have hfound := found_iff.2 ⟨c, supplied_parent.1 hc⟩
    cases hq : part <|> ofDir? (p.parent?.bind Path.parent?) with
    | none =>
      have hmissing := (eq_none_iff_not_found fun _ => supplied_grandparent).1 hq
      simp [hfound, hmissing, eq_comm]
    | some q =>
      have hpart := found_iff.2 ⟨q, supplied_grandparent.1 hq⟩
      simp [hfound, hpart]

/-- The names that a path resolves to, by its components counted from the end, and what is told if
it resolves to none. The components are those of the pieces between slashes that are neither empty
nor a dot, however the path was spelled. -/
theorem resolve_exact (p : Path) (part component : Option String) :
    p.components = p.opening ++ (pieces p.octets).filterMap ofPiece ∧
    ((∃ names, resolve p part component = .ok names) ↔
      Found component p 2 ∧ Found part p 3) ∧
    (∀ names, resolve p part component = .ok names ↔
      Supplied component p 2 names.component ∧ Supplied part p 3 names.part) ∧
    (∀ f, resolve p part component = .error f ↔
      ¬ Found component p 2 ∧ f = .unresolvableName p.display "component" "parent" ∨
        Found component p 2 ∧ ¬ Found part p 3 ∧
          f = .unresolvableName p.display "part" "grandparent") ∧
    ∀ q c, resolve p (some q) (some c) = .ok ⟨q, c⟩ := by
  refine ⟨p.components_eq, ?_, fun _ => resolve_eq_ok, fun _ => resolve_eq_error, fun _ _ => rfl⟩
  rw [found_iff, found_iff]
  constructor
  · rintro ⟨names, hok⟩
    obtain ⟨hcomponent, hpart⟩ := resolve_eq_ok.1 hok
    exact ⟨⟨_, hcomponent⟩, ⟨_, hpart⟩⟩
  · rintro ⟨⟨c, hcomponent⟩, ⟨q, hpart⟩⟩
    exact ⟨⟨q, c⟩, resolve_eq_ok.2 ⟨hcomponent, hpart⟩⟩

/-- Two slashes, a dot and a trailing slash are passed over, and two dots are no name. -/
example :
    resolve (.ofString "ref/core//dns/./a.yaml/") none none = .ok ⟨"core", "dns"⟩ ∧
      resolve (.ofString "core/../a.yaml") none none =
        .error (.unresolvableName "core/../a.yaml" "component" "parent") :=
  ⟨rfl, rfl⟩

end Names
end RefManifest
