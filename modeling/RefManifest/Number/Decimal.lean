/-!
# RefManifest.Number.Decimal

Numbers as texts spell them: digits in some radix, and unsigned decimals with a point or an
exponent, read without rounding.
-/

namespace RefManifest
namespace Number

def digitOf? (radix : Nat) (c : Char) : Option Nat :=
  let value :=
    if '0' ≤ c ∧ c ≤ '9' then c.toNat - 48
    else if 'a' ≤ c ∧ c ≤ 'z' then c.toNat - 87
    else if 'A' ≤ c ∧ c ≤ 'Z' then c.toNat - 55
    else radix
  if value < radix then some value else none

def valueFrom (radix acc : Nat) : List Char → Option Nat
  | [] => some acc
  | c :: rest =>
    match digitOf? radix c with
    | some d => valueFrom radix (acc * radix + d) rest
    | none => none

/-- The number that the digits spell; there has to be at least one. -/
def valueOf? (radix : Nat) (s : List Char) : Option Nat :=
  if s.isEmpty then none else valueFrom radix 0 s

def isDigit (c : Char) : Bool := (digitOf? 10 c).isSome

def exponentOf? (s : List Char) : Option Int :=
  match s with
  | '-' :: rest => (valueOf? 10 rest).map fun n => -(n : Int)
  | '+' :: rest => (valueOf? 10 rest).map fun n => (n : Int)
  | rest => (valueOf? 10 rest).map fun n => (n : Int)

/-- The exponent that the end of a number gives, if it is one. -/
def tailOf? : List Char → Option Int
  | [] => some 0
  | c :: rest => if c = 'e' ∨ c = 'E' then exponentOf? rest else none

/-- An unsigned decimal as digits and an exponent. -/
def decimalOf? (s : List Char) : Option (Nat × Int) :=
  let whole := s.takeWhile isDigit
  let (fraction, tail) :=
    match s.dropWhile isDigit with
    | '.' :: rest => (rest.takeWhile isDigit, rest.dropWhile isDigit)
    | rest => ([], rest)
  match valueOf? 10 (whole ++ fraction), tailOf? tail with
  | some n, some e => some (n, e - fraction.length)
  | _, _ => none

end Number
end RefManifest
