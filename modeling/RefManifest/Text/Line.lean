/-!
# RefManifest.Text.Line

Lines of a text. A line ends at a line feed, or at a carriage return directly before one; the
text after the last line feed is a line of its own unless it is empty.
-/

namespace RefManifest
namespace Text

def consLine (c : Char) : List (List Char) → List (List Char)
  | [] => [[c]]
  | l :: ls => (c :: l) :: ls

def lines : List Char → List (List Char)
  | [] => []
  | '\r' :: '\n' :: rest => [] :: lines rest
  | c :: rest => if c = '\n' then [] :: lines rest else consLine c (lines rest)

end Text
end RefManifest
