import RefManifest.Number.Binary64
import RefManifest.Number.Decimal
import RefManifest.Text.Blank

/-!
# RefManifest.Yaml.Reserved

The texts that a reader of plain YAML takes for something other than a text: null, truth values,
integers of up to 128 bits, numbers with a point or an exponent, and digits behind a zero.
-/

namespace RefManifest
namespace Yaml

open Number Text

def nullWords : List (List Char) := ["", "~", "null", "Null", "NULL"].map String.toList

def boolWords : List (List Char) :=
  ["true", "True", "TRUE", "false", "False", "FALSE"].map String.toList

def infinityWords : List (List Char) := [".inf", ".Inf", ".INF"].map String.toList

def nanWords : List (List Char) := [".nan", ".NaN", ".NAN"].map String.toList

/-- The number that the text spells in some radix. -/
def magnitude? (s : List Char) : Option Nat :=
  match stripLead? ['0', 'x'] s with
  | some rest => valueOf? 16 rest
  | none =>
    match stripLead? ['0', 'o'] s with
    | some rest => valueOf? 8 rest
    | none =>
      match stripLead? ['0', 'b'] s with
      | some rest => valueOf? 2 rest
      | none => valueOf? 10 s

def dropPlus : List Char → List Char
  | '+' :: rest => rest
  | s => s

def dropSign : List Char → List Char
  | '+' :: rest => rest
  | '-' :: rest => rest
  | s => s

def isInteger (s : List Char) : Bool :=
  match s with
  | '-' :: rest =>
    match magnitude? rest with
    | some n => n ≤ Nat.pow 2 127
    | none => false
  | _ =>
    match magnitude? (dropPlus s) with
    | some n => n < Nat.pow 2 128
    | none => false

/-- Digits that start with a zero and go on. -/
def isZeroLed (s : List Char) : Bool :=
  match dropSign s with
  | '0' :: c :: rest => (c :: rest).all fun d => (digitOf? 10 d).isSome
  | _ => false

/-- A finite number in decimal notation, with one sign at most. -/
def isDecimal (s : List Char) : Bool :=
  let bare := dropPlus s
  let (negative, digits) :=
    match bare with
    | '-' :: rest => (true, rest)
    | _ => (false, bare)
  match decimalOf? digits with
  | some (n, e) =>
    !(negative && s != bare) && (Number.Binary64.ofDecimal negative n e).isFinite
  | none => false

/-- One sign at most may stand before an infinity, and none before the value that is no number. -/
def isSpecialNumber (s : List Char) : Bool :=
  infinityWords.contains (dropSign s) || nanWords.contains s

/-- Whether the plain text reads as something other than a text. -/
def isReserved (s : List Char) : Bool :=
  nullWords.contains s || boolWords.contains s || isInteger s || isZeroLed s || isDecimal s ||
    isSpecialNumber s

end Yaml
end RefManifest
