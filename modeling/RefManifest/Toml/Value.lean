import RefManifest.Number.Binary64

/-!
# RefManifest.Toml.Value

TOML values. Of a date or a time only that it is one is kept.
-/

namespace RefManifest
namespace Toml

inductive Value where
  | string (s : List Char)
  | integer (n : Int)
  | float (x : Number.Binary64)
  | boolean (b : Bool)
  | datetime
  | array (items : List Value)
  | table (fields : List (List Char × Value))
deriving Repr, Inhabited

/-- Named values. In a table that was read each name comes once. -/
abbrev Table := List (List Char × Value)

end Toml
end RefManifest
