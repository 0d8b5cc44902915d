/-!
# RefManifest.Number.Binary64

Binary floating point numbers of 53 bits, exactly: a finite number is a sign, a natural number
and a power of two. Rounding is to nearest with ties to even; printing takes the fewest decimal
digits that read back, and of those the nearest, with a rule for ties of its own in each notation.
-/

namespace RefManifest
namespace Number

/-- `finite neg m q` is `m · 2 ^ q`, negated if `neg` is set. -/
inductive Binary64 where
  | finite (negative : Bool) (m : Nat) (q : Int)
  | infinite (negative : Bool)
  | nan
deriving Repr, DecidableEq

namespace Binary64

/-- The natural number nearest to `num / den`; a tie goes to the even one. -/
def roundDiv (num den : Nat) : Nat :=
  let q := num / den
  let r := num % den
  if 2 * r < den then q
  else if den < 2 * r then q + 1
  else if q % 2 = 0 then q
  else q + 1

/-- `num / (den · 2 ^ q)` as a numerator and a denominator. -/
def scale (num den : Nat) (q : Int) : Nat × Nat :=
  if 0 ≤ q then (num, den * Nat.pow 2 q.toNat) else (num * Nat.pow 2 (-q).toNat, den)

/-- The number nearest to `num / den`, for `den` above zero. -/
def ofRatio (negative : Bool) (num den : Nat) : Binary64 :=
  if num = 0 then .finite negative 0 0
  else
    let start : Int := (num.log2 : Int) - (den.log2 : Int) - 52
    let (n, d) := scale num den start
    let normal := if n / d < Nat.pow 2 52 then start - 1 else start
    let q := if normal < -1074 then -1074 else normal
    let (n, d) := scale num den q
    let m := roundDiv n d
    let (m, q) := if Nat.pow 2 53 ≤ m then (m / 2, q + 1) else (m, q)
    if 971 < q then .infinite negative else .finite negative m q

def ofNat (n : Nat) : Binary64 := ofRatio false n 1

def decimalLength (n : Nat) : Nat := (Nat.toDigits 10 n).length

/-- The number nearest to `n · 10 ^ e`. -/
def ofDecimal (negative : Bool) (n : Nat) (e : Int) : Binary64 :=
  let size := (decimalLength n : Int) + e
  if n = 0 then .finite negative 0 0
  else if 400 < size then .infinite negative
  else if size < -400 then .finite negative 0 0
  else if 0 ≤ e then ofRatio negative (n * Nat.pow 10 e.toNat) 1
  else ofRatio negative n (Nat.pow 10 (-e).toNat)

def isFinite : Binary64 → Bool
  | .finite _ _ _ => true
  | _ => false

def isZero : Binary64 → Bool
  | .finite _ m _ => m == 0
  | _ => false

def mul : Binary64 → Binary64 → Binary64
  | .finite a m p, .finite b n q =>
    let (x, y) := scale (m * n) 1 (-(p + q))
    ofRatio (a != b) x y
  | .finite a _ _, .infinite b | .infinite a, .finite b _ _ | .infinite a, .infinite b =>
    .infinite (a != b)
  | _, _ => .nan

def div : Binary64 → Binary64 → Binary64
  | .finite a m p, .finite b n q =>
    if n = 0 then .nan
    else
      let (x, y) := scale m n (-(p - q))
      ofRatio (a != b) x y
  | .infinite a, .finite b _ _ => .infinite (a != b)
  | _, _ => .nan

/-- A decimal `digits · 10 ^ exponent`. -/
structure Decimal where
  digits : Nat
  exponent : Int
deriving Repr, DecidableEq

/-- `m · 2 ^ q / 10 ^ e` as a numerator and a denominator. -/
def onGrid (m : Nat) (q e : Int) : Nat × Nat :=
  let num := if 0 ≤ q then m * Nat.pow 2 q.toNat else m
  let den := if 0 ≤ q then 1 else Nat.pow 2 (-q).toNat
  if 0 ≤ e then (num, den * Nat.pow 10 e.toNat) else (num * Nat.pow 10 (-e).toNat, den)

/-- The decimal exponent of the leading digit of `m · 2 ^ q`. -/
def leadingExponent (m : Nat) (q : Int) : Int :=
  let (num, den) := onGrid m q 0
  if den ≤ num then (decimalLength (num / den) : Int) - 1
  else
    let guess : Int := (decimalLength num : Int) - (decimalLength den : Int)
    let (n, d) := onGrid m q guess
    if d ≤ n then guess else guess - 1

/-- Which of two decimals that are equally near is taken. -/
inductive Tie where
  | larger
  | even
deriving Repr, DecidableEq

/-- Whether a tie between `low` and the number after it goes to `low`. -/
def Tie.takesLow (tie : Tie) (low : Nat) : Bool :=
  match tie with
  | .larger => false
  | .even => low % 2 == 0

/-- The multiple of `10 ^ e` next to `m · 2 ^ q` that reads back as it, the nearer of the two. -/
def readsBack? (tie : Tie) (m : Nat) (q e : Int) : Option Decimal :=
  let (num, den) := onGrid m q e
  let low := num / den
  let reads (n : Nat) : Bool := ofDecimal false n e == .finite false m q
  let nearLow := 2 * (num % den) < den || (2 * (num % den) == den && tie.takesLow low)
  match reads low, reads (low + 1) with
  | true, true => some ⟨if nearLow then low else low + 1, e⟩
  | true, false => some ⟨low, e⟩
  | false, true => some ⟨low + 1, e⟩
  | false, false => none

/-- Tries one more digit until the decimal reads back; 17 digits always do. -/
def shortestFrom (tie : Tie) (m : Nat) (q lead : Int) : Nat → Nat → Decimal
  | 0, _ => ⟨m, 0⟩
  | fuel + 1, count =>
    match readsBack? tie m q (lead - (count : Int) + 1) with
    | some d => d
    | none => shortestFrom tie m q lead fuel (count + 1)

def stripZeros : Nat → Decimal → Decimal
  | 0, d => d
  | fuel + 1, d =>
    if d.digits ≠ 0 ∧ d.digits % 10 = 0 then stripZeros fuel ⟨d.digits / 10, d.exponent + 1⟩
    else d

def shortest (tie : Tie) (m : Nat) (q : Int) : Decimal :=
  if m = 0 then ⟨0, 0⟩
  else stripZeros 20 (shortestFrom tie m q (leadingExponent m q) 20 1)

def digitChars (n : Nat) : List Char := Nat.toDigits 10 n

def zeros (n : Int) : List Char := List.replicate n.toNat '0'

/-- Positional notation, with `.0` after a whole number. -/
def Decimal.positional (d : Decimal) : List Char :=
  let ds := digitChars d.digits
  let point := (ds.length : Int) + d.exponent
  if 0 ≤ d.exponent then ds ++ zeros d.exponent ++ ['.', '0']
  else if 0 < point then ds.take point.toNat ++ '.' :: ds.drop point.toNat
  else '0' :: '.' :: zeros (-point) ++ ds

/-- Positional notation up to 16 digits before and 4 zeros after the point, and an exponent with
its sign otherwise. -/
def Decimal.compact (d : Decimal) : List Char :=
  let ds := digitChars d.digits
  let point := (ds.length : Int) + d.exponent
  if -5 < point ∧ point ≤ 16 then d.positional
  else
    let tail := if ds.length ≤ 1 then [] else '.' :: ds.drop 1
    let mark := if 0 < point then ['e', '+'] else ['e']
    ds.take 1 ++ tail ++ mark ++ (toString (point - 1)).toList

def sign (negative : Bool) : List Char := if negative then ['-'] else []

/-- The text of a number in which every finite one is written positionally. Of two decimals that
are equally near the larger one is taken. -/
def plainText : Binary64 → List Char
  | .finite neg m q => sign neg ++ (shortest .larger m q).positional
  | .infinite neg => sign neg ++ "inf".toList
  | .nan => "NaN".toList

/-- The text of a number in which large and small ones are written with an exponent. Of two
decimals that are equally near the even one is taken. -/
def compactText : Binary64 → List Char
  | .finite neg m q => sign neg ++ (shortest .even m q).compact
  | .infinite neg => sign neg ++ "inf".toList
  | .nan => "NaN".toList

end Binary64
end Number
end RefManifest
