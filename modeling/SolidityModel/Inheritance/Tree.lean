import SolidityModel.Inheritance.Error
import SolidityModel.NameMap
import SolidityModel.Syntax.Declaration

/-!
# Inheritance trees

The direct bases of the contracts of a unit.  A walk up the tree keeps the
contracts between its start and where it stands on its active path; a contract
met twice on one path closes a cycle.  Only contracts with bases lead any
further, and every step puts one more of them on the path
(`InheritanceTree.offPath_lt`), so that every walk ends.
-/

namespace SolidityModel

/-- The direct bases of the contracts that declare any. -/
structure InheritanceTree where
  /-- The base lists by contract, in the order in which the bases are written. -/
  declared : NameMap (List String)
  deriving DecidableEq, Inhabited

namespace InheritanceTree

/-- The tree of a list of contracts.  Of contracts of one name the last one with
bases counts. -/
def ofContracts (contracts : List ContractDef) : InheritanceTree where
  declared := contracts.foldl (fun declared contract =>
    if contract.bases.isEmpty then declared
    else declared.insert contract.name contract.bases) NameMap.empty

/-- The direct bases of a contract, none if it declares none or is unknown. -/
def basesOf (tree : InheritanceTree) (contract : String) : List String :=
  (tree.declared.get? contract).getD []

/-- The contracts with an entry, in ascending order. -/
def contracts (tree : InheritanceTree) : List String :=
  tree.declared.names

/-- Whether no contract has an entry. -/
def isEmpty (tree : InheritanceTree) : Bool :=
  tree.declared.isEmpty

/-- The part of a path from a contract on, closed by that contract. -/
def loopThrough (contract : String) (path : List String) : List String :=
  path.dropWhile (· ≠ contract) ++ [contract]

/-- The number of contracts with an entry that a path does not hold. -/
def offPath (tree : InheritanceTree) (path : List String) : Nat :=
  (tree.contracts.filter (· ∉ path)).length

theorem mem_contracts_of_basesOf {tree : InheritanceTree} {contract : String}
    (declares : tree.basesOf contract ≠ []) : contract ∈ tree.contracts := by
  rw [contracts, NameMap.mem_names_iff]
  cases found : tree.declared.get? contract with
  | none => simp [basesOf, found] at declares
  | some bases => rfl

/-- A step to a contract with bases leaves fewer of them for the rest of a
walk. -/
theorem offPath_lt {tree : InheritanceTree} {path : List String} {contract : String}
    (declares : tree.basesOf contract ≠ []) (fresh : contract ∉ path) :
    tree.offPath (path ++ [contract]) < tree.offPath path := by
  have narrowed : tree.contracts.filter (· ∉ path ++ [contract]) =
      (tree.contracts.filter (· ∉ path)).filter (· ≠ contract) := by
    rw [List.filter_filter]
    refine List.filter_congr fun name _ => ?_
    by_cases equal : name = contract <;> simp [equal]
  rw [offPath, offPath, narrowed, List.length_filter_lt_length_iff_exists]
  exact ⟨contract, List.mem_filter.mpr ⟨mem_contracts_of_basesOf declares, by simpa using fresh⟩,
    by simp⟩

end InheritanceTree

end SolidityModel
