import RefManifest.Log.Filter

/-!
# RefManifest.Log

The log of a run: a line for each notice that the filter lets through.
-/

namespace RefManifest
namespace Log

/-- Controls that could steer a terminal are written by number. -/
def lineChar (c : Char) : List Char :=
  let n := c.toNat
  if n = 0x07 ∨ n = 0x08 ∨ n = 0x0C ∨ n = 0x1B ∨ n = 0x7F then
    ['\\', 'x', Nat.digitChar (n / 16), Nat.digitChar (n % 16)]
  else if 0x80 ≤ n ∧ n ≤ 0x9F then
    ['\\', 'u', '\x7b', Nat.digitChar (n / 16), Nat.digitChar (n % 16), '\x7d']
  else [c]

def padded (label : String) : String :=
  String.ofList (List.replicate (5 - label.length) ' ') ++ label

def line (n : Notice) : String :=
  padded n.level.label ++ " " ++ String.ofList (n.message.toList.flatMap lineChar) ++
    (if n.fatal?.isSome then " fatal=true" else "") ++ "\n"

def text (f : Filter) (ns : List Notice) : String :=
  String.join ((ns.filter f.passes).map line)

end Log
end RefManifest
