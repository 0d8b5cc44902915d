import RefManifest.Text.Utf8

/-!
# RefManifest.Path

Paths as octets. The components of a path are found by splitting at slashes: empty pieces
vanish, and so does `.` unless it opens a relative path. `parent?` and `fileName?` are read off
the components; a parent keeps the spelling of the path up to the end of its last component.
-/

namespace RefManifest

open Text

structure Path where
  octets : Octets
deriving Repr, DecidableEq, Inhabited

/-- A file name: octets other than slash and NUL. -/
abbrev Name := Octets

namespace Path

inductive Component where
  | root
  | here
  | up
  | name (n : Name)
deriving Repr, DecidableEq

def slash : UInt8 := 0x2F

def dot : UInt8 := 0x2E

def ofString (s : String) : Path := ⟨toOctets s⟩

/-- The path as text for a reader. -/
def display (p : Path) : String := ofOctets p.octets

def isEmpty (p : Path) : Bool := p.octets.isEmpty

def isAbsolute (p : Path) : Bool := p.octets.head? == some slash

/-- Puts `b` in front of the first piece. -/
def consPiece (b : UInt8) : List Octets → List Octets
  | [] => [[b]]
  | x :: xs => (b :: x) :: xs

/-- The pieces between slashes; there is one more than there are slashes. -/
def pieces : Octets → List Octets
  | [] => [[]]
  | b :: rest => if b = slash then [] :: pieces rest else consPiece b (pieces rest)

/-- The component a piece stands for, `.` and the empty piece apart. -/
def ofPiece (piece : Octets) : Option Component :=
  if piece = [] ∨ piece = [dot] then none
  else if piece = [dot, dot] then some .up
  else some (.name piece)

/-- The components of the pieces that start at offset `start`, each with the offset at which
it ends. -/
def spansFrom (start : Nat) : List Octets → List (Component × Nat)
  | [] => []
  | x :: xs =>
    let stop := start + x.length
    match ofPiece x with
    | some c => (c, stop) :: spansFrom (stop + 1) xs
    | none => spansFrom (stop + 1) xs

/-- The components of the path, each with the offset at which it ends. -/
def spans (p : Path) : List (Component × Nat) :=
  match pieces p.octets with
  | [] => []
  | x :: xs =>
    if p.isAbsolute then (.root, 1) :: spansFrom 1 xs
    else if x = [dot] then (.here, 1) :: spansFrom 2 xs
    else spansFrom 0 (x :: xs)

def components (p : Path) : List Component := p.spans.map (·.1)

/-- Paths are compared by their components. -/
def same (p q : Path) : Bool := p.components == q.components

/-- The path without its last component; a root and an empty path have no parent. -/
def parent? (p : Path) : Option Path :=
  match p.spans.reverse with
  | [] => none
  | (.root, _) :: _ => none
  | [_] => some ⟨[]⟩
  | _ :: (_, stop) :: _ => some ⟨p.octets.take stop⟩

/-- The last component, if it is a name. -/
def fileName? (p : Path) : Option Name :=
  match p.components.getLast? with
  | some (.name n) => some n
  | _ => none

/-- `q` seen from `p`: an absolute `q` stands for itself. -/
def join (p q : Path) : Path :=
  if q.isAbsolute then q
  else
    match p.octets.getLast? with
    | none => q
    | some b => if b = slash then ⟨p.octets ++ q.octets⟩ else ⟨p.octets ++ slash :: q.octets⟩

/-- Names with a slash between each two. -/
def joinNames : List Name → Octets
  | [] => []
  | [n] => n
  | n :: m :: rest => n ++ slash :: joinNames (m :: rest)

theorem pieces_of_slash_not_mem {x : Octets} (h : slash ∉ x) : pieces x = [x] := by
  induction x with
  | nil => rfl
  | cons b rest ih =>
    simp only [List.mem_cons, not_or] at h
    have hb : ¬ b = slash := fun e => h.1 e.symm
    simp [pieces, hb, ih h.2, consPiece]

theorem pieces_append_slash {x : Octets} (h : slash ∉ x) (rest : Octets) :
    pieces (x ++ slash :: rest) = x :: pieces rest := by
  induction x with
  | nil => simp [pieces]
  | cons b x ih =>
    simp only [List.mem_cons, not_or] at h
    have hb : ¬ b = slash := fun e => h.1 e.symm
    simp [pieces, hb, ih h.2, consPiece]

/-- Splitting undoes joining. -/
theorem pieces_joinNames {names : List Name} (hne : names ≠ [])
    (h : ∀ n ∈ names, slash ∉ n) : pieces (joinNames names) = names := by
  induction names with
  | nil => exact absurd rfl hne
  | cons n rest ih =>
    have hn := h n (List.mem_cons_self ..)
    cases rest with
    | nil => exact pieces_of_slash_not_mem hn
    | cons m rest =>
      rw [joinNames, pieces_append_slash hn,
        ih (by simp) fun k hk => h k (List.mem_cons_of_mem _ hk)]

def ofNames (names : List Name) : Path := ⟨joinNames names⟩

/-- The absolute path through `names` from the root. -/
def ofRoot (names : List Name) : Path := ⟨slash :: joinNames names⟩

/-- The path of what `names` lead to from `base`. -/
def below (base : Path) (names : List Name) : Path :=
  if names.isEmpty then base else base.join (ofNames names)

def Component.text : Component → List Char
  | .root => ['/']
  | .here => ['.']
  | .up => ['.', '.']
  | .name n => Utf8.decodeLossy n

/-- The components as text with a slash between each two. A root is a component of its own, so
an absolute path starts with two slashes. -/
def slashed (p : Path) : List Char :=
  List.intercalate ['/'] (p.components.map Component.text)

def toSlash (p : Path) : String := String.ofList p.slashed

end Path
end RefManifest
