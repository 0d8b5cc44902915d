import RefManifest.Toml.Lexeme
import RefManifest.Toml.Value

/-!
# RefManifest.Toml.Scalar

Values written without quotes: truth values, integers of 64 bits, floating point numbers, dates
and times. A word is all of one value or no value at all.
-/

namespace RefManifest
namespace Toml

open Text

/-- The digits of a run in which an underscore may stand between two of them. -/
def digitRun? (isDigit : Char → Bool) : List Char → Option (List Char)
  | [] => none
  | [c] => if isDigit c then some [c] else none
  | c :: '_' :: rest => if isDigit c then (digitRun? isDigit rest).map (c :: ·) else none
  | c :: d :: rest => if isDigit c then (digitRun? isDigit (d :: rest)).map (c :: ·) else none

def isDigitOf (radix : Nat) (c : Char) : Bool :=
  match hexValue? c with
  | some d => d < radix
  | none => false

def numberOf (radix : Nat) (digits : List Char) : Nat :=
  digits.foldl (fun n c => n * radix + (hexValue? c).getD 0) 0

/-- The digits of a run that starts with a zero only if it is that zero. -/
def wholeRun? (s : List Char) : Option (List Char) :=
  match digitRun? isDigit s with
  | some ('0' :: _ :: _) => none
  | digits => digits

def radixInteger? (radix : Nat) (s : List Char) : Option Value :=
  match digitRun? (isDigitOf radix) s with
  | none => none
  | some digits =>
    let n := numberOf radix digits
    if n < Nat.pow 2 63 then some (.integer n) else none

def decimalInteger? (negative : Bool) (s : List Char) : Option Value :=
  match wholeRun? s with
  | none => none
  | some digits =>
    let n := numberOf 10 digits
    if negative then if n ≤ Nat.pow 2 63 then some (.integer (-(n : Int))) else none
    else if n < Nat.pow 2 63 then some (.integer n) else none

def exponent? (s : List Char) : Option Int :=
  match s with
  | '-' :: rest => (digitRun? isDigit rest).map fun ds => -(numberOf 10 ds : Int)
  | '+' :: rest => (digitRun? isDigit rest).map fun ds => (numberOf 10 ds : Int)
  | rest => (digitRun? isDigit rest).map fun ds => (numberOf 10 ds : Int)

def isExponentMark (c : Char) : Bool := c == 'e' || c == 'E'

/-- A number with a point or an exponent, unless it is too large. -/
def float? (negative : Bool) (s : List Char) : Option Value :=
  let significand := s.takeWhile fun c => !isExponentMark c
  let whole := significand.takeWhile fun c => c != '.'
  let fraction :=
    match significand.dropWhile fun c => c != '.' with
    | [] => some []
    | _ :: rest => digitRun? isDigit rest
  let power :=
    match s.dropWhile fun c => !isExponentMark c with
    | [] => some 0
    | _ :: rest => exponent? rest
  match wholeRun? whole, fraction, power with
  | some ds, some fs, some e =>
    let x := Number.Binary64.ofDecimal negative (numberOf 10 (ds ++ fs)) (e - fs.length)
    if x.isFinite then some (.float x) else none
  | _, _, _ => none

def signedNumber? (negative : Bool) (s : List Char) : Option Value :=
  if s = "inf".toList then some (.float (.infinite negative))
  else if s = "nan".toList then some (.float .nan)
  else
    match decimalInteger? negative s with
    | some v => some v
    | none =>
      if s.any fun c => c == '.' || isExponentMark c then float? negative s else none

def number? : List Char → Option Value
  | '+' :: rest => signedNumber? false rest
  | '-' :: rest => signedNumber? true rest
  | '0' :: 'x' :: rest => radixInteger? 16 rest
  | '0' :: 'o' :: rest => radixInteger? 8 rest
  | '0' :: 'b' :: rest => radixInteger? 2 rest
  | s => signedNumber? false s

/-- The number that exactly `count` digits at the front spell. -/
def fixedDigits? (count : Nat) (s : List Char) : Option (Nat × List Char) :=
  let digits := s.take count
  if digits.length = count ∧ digits.all isDigit then some (numberOf 10 digits, s.drop count)
  else none

def isLeapYear (y : Nat) : Bool := y % 4 == 0 && (y % 100 != 0 || y % 400 == 0)

def daysIn (year month : Nat) : Nat :=
  if month = 2 then if isLeapYear year then 29 else 28
  else if month = 4 ∨ month = 6 ∨ month = 9 ∨ month = 11 then 30
  else 31

/-- The rest after `YYYY-MM-DD`, a day that exists. -/
def dropDate? (s : List Char) : Option (List Char) :=
  match fixedDigits? 4 s with
  | some (year, '-' :: rest) =>
    match fixedDigits? 2 rest with
    | some (month, '-' :: rest) =>
      match fixedDigits? 2 rest with
      | some (day, rest) =>
        if 1 ≤ month ∧ month ≤ 12 ∧ 1 ≤ day ∧ day ≤ daysIn year month then some rest else none
      | none => none
    | _ => none
  | _ => none

def dropFraction? : List Char → Option (List Char)
  | '.' :: rest =>
    match rest.takeWhile isDigit with
    | [] => none
    | _ :: _ => some (rest.dropWhile isDigit)
  | s => some s

/-- The rest after the seconds, which may be missing. -/
def dropSeconds? : List Char → Option (List Char)
  | ':' :: rest =>
    match fixedDigits? 2 rest with
    | some (second, rest) => if second ≤ 60 then dropFraction? rest else none
    | none => none
  | s => some s

/-- The rest after `HH:MM`. -/
def dropMinutes? (s : List Char) : Option (List Char) :=
  match fixedDigits? 2 s with
  | some (hour, ':' :: rest) =>
    match fixedDigits? 2 rest with
    | some (minute, rest) => if hour ≤ 23 ∧ minute ≤ 59 then some rest else none
    | none => none
  | _ => none

def dropTime? (s : List Char) : Option (List Char) := (dropMinutes? s).bind dropSeconds?

def isOffset : List Char → Bool
  | [] => true
  | ['Z'] => true
  | ['z'] => true
  | '+' :: rest => dropMinutes? rest == some []
  | '-' :: rest => dropMinutes? rest == some []
  | _ => false

def isDatetime (s : List Char) : Bool :=
  match dropDate? s with
  | some [] => true
  | some (c :: rest) =>
    (c == 'T' || c == 't' || c == ' ') &&
      match dropTime? rest with
      | some tail => isOffset tail
      | none => false
  | none => dropTime? s == some []

def isWordChar (c : Char) : Bool := isBare c || c == '+' || c == '.' || c == ':'

/-- The word at the front. A blank between a date and a time belongs to it. -/
def splitWord (s : List Char) : List Char × List Char :=
  let word := s.takeWhile isWordChar
  match s.dropWhile isWordChar with
  | ' ' :: d :: rest =>
    if dropDate? word == some [] && isDigit d then
      (word ++ ' ' :: (d :: rest).takeWhile isWordChar, (d :: rest).dropWhile isWordChar)
    else (word, ' ' :: d :: rest)
  | rest => (word, rest)

def ofWord? (word : List Char) : Option Value :=
  if word = "true".toList then some (.boolean true)
  else if word = "false".toList then some (.boolean false)
  else
    match number? word with
    | some v => some v
    | none => if isDatetime word then some .datetime else none

end Toml
end RefManifest
