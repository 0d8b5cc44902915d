import RefManifest.Number.Binary64
import RefManifest.Text.Hex

/-!
# RefManifest.Json.Token

JSON text as tokens. Scanning reads one character at a time and stops at the first character
that no token can have there, which becomes the token `bad`; so a reader of tokens meets faults
in the order of the text.
-/

namespace RefManifest
namespace Json

/-- A number as it was written: digits before the point, after it, and in the exponent. -/
structure Numeral where
  negative : Bool
  whole : List Nat
  fraction : List Nat
  hasFraction : Bool
  exponentNegative : Bool
  exponent : List Nat
  hasExponent : Bool
deriving Repr, DecidableEq

inductive Token where
  | openBrace
  | closeBrace
  | openBracket
  | closeBracket
  | comma
  | colon
  | text (s : List Char)
  | brokenText
  | number (n : Numeral)
  | bool (b : Bool)
  | null
  | bad
deriving Repr, DecidableEq

inductive NumberPart where
  | minus
  | zero
  | whole
  | point
  | fraction
  | exponentMark
  | exponentSign
  | exponent
deriving Repr, DecidableEq

/-- What is being read. The digits and characters read so far are kept last first. A text
remembers a leading surrogate that waits for its partner, and whether it is sound so far. -/
inductive Mode where
  | between
  | word (left : List Char) (token : Token)
  | text (read : List Char) (high : Option Nat) (sound : Bool)
  | escape (read : List Char) (high : Option Nat) (sound : Bool)
  | hex (read : List Char) (high : Option Nat) (sound : Bool) (left : Nat) (value : Nat)
  | number (part : NumberPart) (n : Numeral)
deriving Repr, DecidableEq

/-- What one character does: tokens that it completes and the mode after it, or a fault. -/
inductive Turn where
  | go (tokens : List Token) (mode : Mode)
  | stop (tokens : List Token)
deriving Repr, DecidableEq

def digit? (c : Char) : Option Nat :=
  if '0' ≤ c ∧ c ≤ '9' then some (c.toNat - 48) else none

def emptyNumeral : Numeral := ⟨false, [], [], false, false, [], false⟩

def begin (c : Char) : Turn :=
  if c = ' ' ∨ c = '\n' ∨ c = '\t' ∨ c = '\r' then .go [] .between
  else if c = '\x7b' then .go [.openBrace] .between
  else if c = '\x7d' then .go [.closeBrace] .between
  else if c = '[' then .go [.openBracket] .between
  else if c = ']' then .go [.closeBracket] .between
  else if c = ',' then .go [.comma] .between
  else if c = ':' then .go [.colon] .between
  else if c = '"' then .go [] (.text [] none true)
  else if c = 't' then .go [] (.word "rue".toList (.bool true))
  else if c = 'f' then .go [] (.word "alse".toList (.bool false))
  else if c = 'n' then .go [] (.word "ull".toList .null)
  else if c = '-' then .go [] (.number .minus { emptyNumeral with negative := true })
  else if c = '0' then .go [] (.number .zero { emptyNumeral with whole := [0] })
  else
    match digit? c with
    | some d => .go [] (.number .whole { emptyNumeral with whole := [d] })
    | none => .stop []

/-- The number as it is once all its digits are read. -/
def Numeral.finish (n : Numeral) : Numeral :=
  { n with
    whole := n.whole.reverse
    fraction := n.fraction.reverse
    exponent := n.exponent.reverse }

/-- Ends the number before `c`. -/
def endNumber (n : Numeral) (c : Char) : Turn :=
  match begin c with
  | .go ts m => .go (.number n.finish :: ts) m
  | .stop ts => .stop (.number n.finish :: ts)

def isExponentMark (c : Char) : Bool := c == 'e' || c == 'E'

def numberTurn (part : NumberPart) (n : Numeral) (c : Char) : Turn :=
  match part, digit? c with
  | .minus, some 0 => .go [] (.number .zero { n with whole := [0] })
  | .minus, some d => .go [] (.number .whole { n with whole := [d] })
  | .minus, none => .stop []
  | .zero, some _ => .stop []
  | .zero, none => wholeEnd
  | .whole, some d => .go [] (.number .whole { n with whole := d :: n.whole })
  | .whole, none => wholeEnd
  | .point, some d => .go [] (.number .fraction { n with fraction := [d] })
  | .point, none => .stop []
  | .fraction, some d => .go [] (.number .fraction { n with fraction := d :: n.fraction })
  | .fraction, none =>
    if isExponentMark c then .go [] (.number .exponentMark { n with hasExponent := true })
    else endNumber n c
  | .exponentMark, some d => .go [] (.number .exponent { n with exponent := [d] })
  | .exponentMark, none =>
    if c = '+' then .go [] (.number .exponentSign n)
    else if c = '-' then .go [] (.number .exponentSign { n with exponentNegative := true })
    else .stop []
  | .exponentSign, some d => .go [] (.number .exponent { n with exponent := [d] })
  | .exponentSign, none => .stop []
  | .exponent, some d => .go [] (.number .exponent { n with exponent := d :: n.exponent })
  | .exponent, none => endNumber n c
where
  wholeEnd : Turn :=
    if c = '.' then .go [] (.number .point { n with hasFraction := true })
    else if isExponentMark c then .go [] (.number .exponentMark { n with hasExponent := true })
    else endNumber n c

def simpleEscape? (c : Char) : Option Char :=
  if c = '"' then some '"'
  else if c = '\\' then some '\\'
  else if c = '/' then some '/'
  else if c = 'b' then some '\x08'
  else if c = 'f' then some '\x0c'
  else if c = 'n' then some '\n'
  else if c = 'r' then some '\r'
  else if c = 't' then some '\t'
  else none

def isLowSurrogate (n : Nat) : Bool := 0xDC00 ≤ n && n ≤ 0xDFFF

def isHighSurrogate (n : Nat) : Bool := 0xD800 ≤ n && n ≤ 0xDBFF

/-- A 16-bit unit given by its number. -/
def unitMode (read : List Char) (high : Option Nat) (sound : Bool) (n : Nat) : Mode :=
  match high with
  | some h =>
    if isLowSurrogate n then
      .text (Char.ofNat ((h - 0xD800) * 0x400 + (n - 0xDC00) + 0x10000) :: read) none sound
    else .text read none false
  | none =>
    if isLowSurrogate n then .text read none false
    else if isHighSurrogate n then .text read (some n) sound
    else .text (Char.ofNat n :: read) none sound

def turn : Mode → Char → Turn
  | .between, c => begin c
  | .word [] t, c =>
    match begin c with
    | .go ts m => .go (t :: ts) m
    | .stop ts => .stop (t :: ts)
  | .word (w :: left) t, c =>
    if c = w then
      if left = [] then .go [t] .between else .go [] (.word left t)
    else .stop []
  | .text read high sound, c =>
    let whole := sound && high.isNone
    if c = '"' then .go [if whole then .text read.reverse else .brokenText] .between
    else if c = '\\' then .go [] (.escape read high sound)
    else if c.toNat < 0x20 then .stop []
    else .go [] (.text (c :: read) none whole)
  | .escape read high sound, c =>
    if c = 'u' then .go [] (.hex read high sound 3 0)
    else
      match simpleEscape? c with
      | some x => .go [] (.text (x :: read) none (sound && high.isNone))
      | none => .stop []
  | .hex read high sound left value, c =>
    match Text.hexValue? c with
    | none => .stop []
    | some d =>
      let value := value * 16 + d
      match left with
      | 0 => .go [] (unitMode read high sound value)
      | k + 1 => .go [] (.hex read high sound k value)
  | .number part n, c => numberTurn part n c

def atEnd : Mode → List Token
  | .between => []
  | .number .zero n | .number .whole n | .number .fraction n | .number .exponent n =>
    [.number n.finish]
  | _ => [.bad]

def tokensFrom (mode : Mode) : List Char → List Token
  | [] => atEnd mode
  | c :: rest =>
    match turn mode c with
    | .go ts next => ts ++ tokensFrom next rest
    | .stop ts => ts ++ [.bad]

def tokens (text : List Char) : List Token := tokensFrom .between text

/-- The value of a number: an integer of 64 bits if it is written as one and fits, a binary
fraction otherwise, and nothing if it is too large for that. -/
inductive Number where
  | integer (n : Int)
  | fraction (x : Number.Binary64)
  | outOfRange
deriving Repr, DecidableEq

def maxUnsigned : Nat := Nat.pow 2 64 - 1

/-- The digits that fit into 64 bits, and how many are left over. -/
def significandOf (acc : Nat) : List Nat → Nat × Nat
  | [] => (acc, 0)
  | d :: rest =>
    if maxUnsigned < acc * 10 + d then (acc, rest.length + 1)
    else significandOf (acc * 10 + d) rest

/-- Takes the digits after the point in as long as they fit. -/
def fractionOf (acc taken : Nat) : List Nat → Nat × Nat
  | [] => (acc, taken)
  | d :: rest =>
    if maxUnsigned < acc * 10 + d then (acc, taken)
    else fractionOf (acc * 10 + d) (taken + 1) rest

/-- Multiplies by a power of ten in at most three rounded steps. -/
def scaleByTen (negative : Bool) (x : Number.Binary64) (e : Int) : Nat → Number
  | 0 => .fraction (.finite negative 0 0)
  | fuel + 1 =>
    if e.natAbs ≤ 308 then
      let power := Number.Binary64.ofNat (Nat.pow 10 e.natAbs)
      let y := if 0 ≤ e then x.mul power else x.div power
      if y.isFinite then
        match y with
        | .finite _ m q => .fraction (.finite negative m q)
        | _ => .outOfRange
      else .outOfRange
    else if x.isZero then .fraction (.finite negative 0 0)
    else if 0 ≤ e then .outOfRange
    else scaleByTen negative (x.div (Number.Binary64.ofNat (Nat.pow 10 308))) (e + 308) fuel

def natOfDigits (ds : List Nat) : Nat := ds.foldl (fun n d => n * 10 + d) 0

def Numeral.value (n : Numeral) : Number :=
  let (whole, dropped) := significandOf 0 n.whole
  if !n.hasFraction && !n.hasExponent && dropped == 0 then
    if !n.negative then .integer whole
    else if whole = 0 ∨ Nat.pow 2 63 < whole then
      match Number.Binary64.ofNat whole with
      | .finite _ m q => .fraction (.finite true m q)
      | _ => .outOfRange
    else .integer (-(whole : Int))
  else
    let (significand, taken) := fractionOf whole 0 n.fraction
    let exponent := natOfDigits n.exponent
    if Nat.pow 2 31 ≤ exponent then
      if significand ≠ 0 ∧ n.exponentNegative = false then .outOfRange
      else .fraction (.finite n.negative 0 0)
    else
      let e : Int := (dropped : Int) - (taken : Int) +
        (if n.exponentNegative then -(exponent : Int) else exponent)
      scaleByTen n.negative (Number.Binary64.ofNat significand) e 4

def Number.text : Number → Option String
  | .integer n => some ("integer `" ++ toString n ++ "`")
  | .fraction x => some ("floating point `" ++ String.ofList x.compactText ++ "`")
  | .outOfRange => none

end Json
end RefManifest
