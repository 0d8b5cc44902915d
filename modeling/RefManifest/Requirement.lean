/-!
# RefManifest.Requirement

Whether a component or a template has to be there. Declarations are merged so that `required`
wins over `optional` and either wins over nothing.
-/

namespace RefManifest

inductive Requirement where
  | required
  | optional
deriving Repr, DecidableEq, Inhabited

namespace Requirement

def label : Requirement → String
  | required => "Required"
  | optional => "Optional"

def merge : Option Requirement → Option Requirement → Option Requirement
  | some required, _ => some required
  | _, some required => some required
  | some optional, _ => some optional
  | _, some optional => some optional
  | none, none => none

theorem merge_none (a : Option Requirement) : merge a none = a := by
  rcases a with _ | _ | _ <;> rfl

theorem merge_comm (a b : Option Requirement) : merge a b = merge b a := by
  rcases a with _ | _ | _ <;> rcases b with _ | _ | _ <;> rfl

theorem merge_assoc (a b c : Option Requirement) :
    merge (merge a b) c = merge a (merge b c) := by
  rcases a with _ | _ | _ <;> rcases b with _ | _ | _ <;> rcases c with _ | _ | _ <;> rfl

end Requirement
end RefManifest
