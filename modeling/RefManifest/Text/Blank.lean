/-!
# RefManifest.Text.Blank

White space of text: the Unicode class `White_Space`, trimming by it and the first word of a
line. All functions work on lists of characters, so that later statements need no positions.
-/

namespace RefManifest
namespace Text

/-- Membership in the Unicode class `White_Space`. -/
def isBlank (c : Char) : Bool :=
  let n := c.toNat
  (9 ≤ n && n ≤ 13) || n == 32 || n == 0x85 || n == 0xA0 || n == 0x1680 ||
    (0x2000 ≤ n && n ≤ 0x200A) || n == 0x2028 || n == 0x2029 || n == 0x202F ||
    n == 0x205F || n == 0x3000

def trimStart (s : List Char) : List Char := s.dropWhile isBlank

def trimEnd (s : List Char) : List Char := (s.reverse.dropWhile isBlank).reverse

def trim (s : List Char) : List Char := trimEnd (trimStart s)

/-- The first maximal run of characters that are not blank, if there is one. -/
def firstWord? (s : List Char) : Option (List Char) :=
  match trimStart s with
  | [] => none
  | c :: rest => some ((c :: rest).takeWhile fun x => !isBlank x)

/-- What follows `lead` at the start of `s`, if `s` starts with it. -/
def stripLead? : List Char → List Char → Option (List Char)
  | [], s => some s
  | _ :: _, [] => none
  | p :: ps, c :: cs => if p = c then stripLead? ps cs else none

/-- What precedes `tail` at the end of `s`, if `s` ends with it. -/
def stripTail? (tail s : List Char) : Option (List Char) :=
  (stripLead? tail.reverse s.reverse).map List.reverse

theorem stripLead?_eq_some {p s r : List Char} : stripLead? p s = some r ↔ s = p ++ r := by
  induction p generalizing s with
  | nil => simp [stripLead?, eq_comm]
  | cons a p ih =>
    cases s with
    | nil => simp [stripLead?]
    | cons c s =>
      by_cases h : a = c
      · subst h; simp [stripLead?, ih]
      · simp [stripLead?, h, Ne.symm h]

theorem stripTail?_eq_some {t s r : List Char} : stripTail? t s = some r ↔ s = r ++ t := by
  simp only [stripTail?, Option.map_eq_some_iff, stripLead?_eq_some]
  constructor
  · rintro ⟨x, hx, rfl⟩
    have := congrArg List.reverse hx
    simpa using this
  · intro h
    exact ⟨r.reverse, by simp [h], by simp⟩

end Text
end RefManifest
