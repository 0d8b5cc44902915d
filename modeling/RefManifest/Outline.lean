/-!
# RefManifest.Outline

The shape that every output format prints: a record is a list of named values, and a value is a
text or a list of records.
-/

namespace RefManifest

inductive Outline where
  | text (s : List Char)
  | records (rs : List (List (String × Outline)))
deriving Repr, Inhabited

abbrev Outline.Fields := List (String × Outline)

end RefManifest
