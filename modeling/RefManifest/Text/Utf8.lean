/-!
# RefManifest.Text.Utf8

UTF-8 as octets. Decoding reads one octet at a time and answers `none` for each maximal
subsequence that is not well formed, so that strict decoding and lossy decoding (which puts
U+FFFD in its place) are two views of one run.
-/

namespace RefManifest
namespace Text

abbrev Octets := List UInt8

namespace Utf8

/-- What the decoder has read of a character that is not complete: the number of octets still
to come, the range the next one has to lie in, and the bits so far. -/
structure Pending where
  need : Nat
  low : Nat
  high : Nat
  bits : Nat
deriving Repr, DecidableEq

inductive Lead where
  | char (c : Char)
  | more (p : Pending)
  | bad
deriving Repr, DecidableEq

/-- What an octet at the start of a character announces. -/
def lead (b : UInt8) : Lead :=
  let n := b.toNat
  if n < 0x80 then .char (Char.ofNat n)
  else if n < 0xC2 then .bad
  else if n < 0xE0 then .more ⟨1, 0x80, 0xBF, n - 0xC0⟩
  else if n < 0xF0 then
    .more ⟨2, if n = 0xE0 then 0xA0 else 0x80, if n = 0xED then 0x9F else 0xBF, n - 0xE0⟩
  else if n < 0xF5 then
    .more ⟨3, if n = 0xF0 then 0x90 else 0x80, if n = 0xF4 then 0x8F else 0xBF, n - 0xF0⟩
  else .bad

/-- Decoding from the start of a character (`none`) or from inside one. -/
def decodeFrom : Option Pending → Octets → List (Option Char)
  | none, [] => []
  | some _, [] => [none]
  | none, b :: rest =>
    match lead b with
    | .char c => some c :: decodeFrom none rest
    | .more p => decodeFrom (some p) rest
    | .bad => none :: decodeFrom none rest
  | some p, b :: rest =>
    let n := b.toNat
    if p.low ≤ n ∧ n ≤ p.high then
      let bits := p.bits * 64 + (n - 0x80)
      if p.need ≤ 1 then some (Char.ofNat bits) :: decodeFrom none rest
      else decodeFrom (some ⟨p.need - 1, 0x80, 0xBF, bits⟩) rest
    else
      match lead b with
      | .char c => none :: some c :: decodeFrom none rest
      | .more q => none :: decodeFrom (some q) rest
      | .bad => none :: none :: decodeFrom none rest

/-- The characters of the octets, `none` for each maximal ill-formed subsequence. -/
def scan (bytes : Octets) : List (Option Char) := decodeFrom none bytes

/-- The text, if every octet belongs to a well-formed character. -/
def decode? (bytes : Octets) : Option (List Char) := (scan bytes).mapM id

/-- The text with U+FFFD for each maximal ill-formed subsequence. -/
def decodeLossy (bytes : Octets) : List Char := (scan bytes).map fun c => c.getD '\uFFFD'

def encodeChar (c : Char) : Octets :=
  let n := c.toNat
  if n < 0x80 then [UInt8.ofNat n]
  else if n < 0x800 then [UInt8.ofNat (0xC0 + n / 64), UInt8.ofNat (0x80 + n % 64)]
  else if n < 0x10000 then
    [UInt8.ofNat (0xE0 + n / 4096), UInt8.ofNat (0x80 + n / 64 % 64), UInt8.ofNat (0x80 + n % 64)]
  else
    [UInt8.ofNat (0xF0 + n / 262144), UInt8.ofNat (0x80 + n / 4096 % 64),
      UInt8.ofNat (0x80 + n / 64 % 64), UInt8.ofNat (0x80 + n % 64)]

def encode (s : List Char) : Octets := s.flatMap encodeChar

end Utf8

/-- Octets as text for a reader: ill-formed parts become U+FFFD. -/
def ofOctets (bytes : Octets) : String := String.ofList (Utf8.decodeLossy bytes)

def toOctets (s : String) : Octets := Utf8.encode s.toList

/-- A file's octets as text: taken as they are when they are well formed, mended otherwise. -/
def ofFile (bytes : Octets) : String :=
  match Utf8.decode? bytes with
  | some s => String.ofList s
  | none => ofOctets bytes

end Text
end RefManifest
