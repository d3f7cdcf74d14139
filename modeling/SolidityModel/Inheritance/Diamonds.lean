import SolidityModel.Inheritance.Tree

/-!
# Diamonds

A diamond is an ancestor that a contract inherits from along more than one path.
-/

namespace SolidityModel

/-- The ancestors of a root that more than one path reaches. -/
structure DiamondReport where
  root : String
  /-- The number of paths to each of these ancestors. -/
  counts : NameMap Nat
  deriving DecidableEq, Inhabited

/-- Whether every ancestor is reached along a single path. -/
def DiamondReport.isEmpty (report : DiamondReport) : Bool :=
  report.counts.isEmpty

/-- Count one more path to a name. -/
def countPath (counts : NameMap Nat) (name : String) : NameMap Nat :=
  counts.insert name ((counts.get? name).getD 0 + 1)

namespace InheritanceTree

/-- Count the paths to the ancestors of a contract that a walk reaches on an
active path. -/
def countPathsFrom (tree : InheritanceTree) (active : List String) (contract : String)
    (counts : NameMap Nat) : Except InheritanceError (NameMap Nat) :=
  if _ : contract ∈ active then
    .error (.cyclic contract (loopThrough contract active))
  else if _ : tree.basesOf contract ≠ [] then
    (tree.basesOf contract).foldlM (fun counts base =>
      countPathsFrom tree (active ++ [contract]) base (countPath counts base)) counts
  else .ok counts
termination_by tree.offPath active
decreasing_by exact offPath_lt ‹_› ‹_›

/-- The diamonds above a root. -/
def diamonds (tree : InheritanceTree) (root : String) :
    Except InheritanceError DiamondReport :=
  (tree.countPathsFrom [] root NameMap.empty).map fun counts =>
    { root, counts := counts.filter fun _ count => 1 < count }

end InheritanceTree

end SolidityModel
