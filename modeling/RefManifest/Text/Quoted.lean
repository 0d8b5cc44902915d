import RefManifest.Text.Printable
import RefManifest.Text.Utf8

/-!
# RefManifest.Text.Quoted

Text between double quotes for a message: quotes and backslashes are escaped, and characters
that would not show are written by name or number. Octets are quoted as the text they encode,
with single quotes escaped as well and ill-formed octets by number.
-/

namespace RefManifest
namespace Text

def quoteChar (c : Char) : List Char :=
  if c = '\x00' then ['\\', '0']
  else if c = '\t' then ['\\', 't']
  else if c = '\r' then ['\\', 'r']
  else if c = '\n' then ['\\', 'n']
  else if c = '"' then ['\\', '"']
  else if c = '\\' then ['\\', '\\']
  else if isShown c then [c]
  else ['\\', 'u', '\x7b'] ++ Nat.toDigits 16 c.toNat ++ ['\x7d']

def quoted (s : String) : String :=
  String.ofList ('"' :: s.toList.flatMap quoteChar ++ ['"'])

/-- The well-formed character at the front and the number of its octets. -/
def frontChar? (bytes : Octets) : Option (Char × Nat) :=
  [1, 2, 3, 4].findSome? fun size =>
    match Utf8.decode? (bytes.take size) with
    | some [c] => some (c, size)
    | _ => none

def octetNumber (b : UInt8) : List Char :=
  ['\\', 'x', (Nat.digitChar (b.toNat / 16)).toUpper, (Nat.digitChar (b.toNat % 16)).toUpper]

/-- The octets between the quotes; the first `skip` belong to a character that is written. -/
def quoteOctets (skip : Nat) : Octets → List Char
  | [] => []
  | b :: rest =>
    match skip with
    | k + 1 => quoteOctets k rest
    | 0 =>
      match frontChar? (b :: rest) with
      | some ('\'', size) => '\\' :: '\'' :: quoteOctets (size - 1) rest
      | some (c, size) => quoteChar c ++ quoteOctets (size - 1) rest
      | none => octetNumber b ++ quoteOctets 0 rest

def quotedOctets (bytes : Octets) : String :=
  String.ofList ('"' :: quoteOctets 0 bytes ++ ['"'])

end Text
end RefManifest
