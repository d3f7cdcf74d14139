import SolidityModel.Text.Quoted

/-!
# What can be wrong with an inheritance hierarchy
-/

namespace SolidityModel

/-- Why the ancestors of a contract have no order. -/
inductive InheritanceError where
  /-- No order of the bases of `contract` respects the sequences that `remaining`
  holds. -/
  | inconsistent (contract : String) (remaining : List (List String))
  /-- `contract` inherits from itself along `path`, which begins and ends with
  it. -/
  | cyclic (contract : String) (path : List String)
  deriving DecidableEq, Inhabited

/-- The wording of an error. -/
def InheritanceError.message : InheritanceError → String
  | inconsistent contract remaining =>
      "inconsistent hierarchy for `" ++ contract ++ "`: cannot merge "
        ++ Text.quoteLists remaining
  | cyclic contract path =>
      "cyclic inheritance through `" ++ contract ++ "`: " ++ String.intercalate " -> " path

end SolidityModel
