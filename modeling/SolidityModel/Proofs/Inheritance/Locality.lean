import Mathlib.Data.List.Induction
import SolidityModel.Proofs.Inheritance.Memo

/-!
# Walks look only upwards

A walk reads the base lists of the contracts that it reaches and of no others.
Trees that have the same base lists above a contract therefore give it the same
outcome (`InheritanceTree.ancestorsOf_congr`), a failure included.
-/

namespace SolidityModel

theorem mapM_congr_left {ε α β : Type} {visit other : α → Except ε β} {names : List α}
    (same : ∀ name ∈ names, visit name = other name) :
    names.mapM visit = names.mapM other := by
  induction names with
  | nil => rfl
  | cons name rest ih =>
      have here := same name List.mem_cons_self
      have later := ih fun other member => same other (List.mem_cons_of_mem name member)
      rw [List.mapM_cons, List.mapM_cons, here, later]

namespace InheritanceTree

variable {tree other : InheritanceTree} {active : List String} {contract : String}

/-- Two trees have the same base lists for a contract and for all that it inherits
from. -/
def AgreesAbove (tree other : InheritanceTree) (contract : String) : Prop :=
  ∀ name, tree.Reaches contract name → tree.basesOf name = other.basesOf name

theorem AgreesAbove.base (agrees : tree.AgreesAbove other contract) {base : String}
    (isBase : base ∈ tree.basesOf contract) : tree.AgreesAbove other base := by
  intro name reaches
  exact agrees name (.head isBase reaches)

theorem orderOnPath_congr (agrees : tree.AgreesAbove other contract) :
    tree.orderOnPath active contract = other.orderOnPath active contract := by
  induction active, contract using walk_induction tree with
  | step active contract ih =>
      by_cases onPath : contract ∈ active
      · rw [orderOnPath_of_mem onPath, orderOnPath_of_mem onPath]
      · have basesEq : tree.basesOf contract = other.basesOf contract := agrees contract .refl
        have visited : (tree.basesOf contract).mapM (tree.orderOnPath (active ++ [contract])) =
            (tree.basesOf contract).mapM (other.orderOnPath (active ++ [contract])) :=
          mapM_congr_left fun base isBase => ih onPath base isBase (agrees.base isBase)
        rw [orderOnPath_of_not_mem onPath, orderOnPath_of_not_mem onPath, visited, basesEq]

/-- The outcome for a contract depends on what is above it. -/
theorem ancestorsOf_congr (agrees : tree.AgreesAbove other contract) :
    tree.ancestorsOf contract = other.ancestorsOf contract := by
  rw [ancestorsOf_eq_orderOnPath, ancestorsOf_eq_orderOnPath, orderOnPath_congr agrees]

/-! ## Base lists of a list of contracts -/

/-- The entry of a name is the base list of the last contract of this name that has
bases. -/
theorem get?_declared_ofContracts (contracts : List ContractDef) (name : String) :
    (ofContracts contracts).declared.get? name =
      (contracts.reverse.find? fun contract =>
        contract.name = name ∧ contract.bases.isEmpty = false).map (·.bases) := by
  induction contracts using List.reverseRecOn with
  | nil => rfl
  | append_singleton contracts contract ih =>
      simp only [ofContracts] at ih
      simp only [ofContracts, List.foldl_append, List.foldl_cons, List.foldl_nil,
        List.reverse_append, List.reverse_singleton, List.singleton_append, List.find?_cons]
      cases empty : contract.bases.isEmpty with
      | true => simpa using ih
      | false =>
          by_cases equal : contract.name = name
          · simp [equal]
          · simpa [equal, Ne.symm equal] using ih

/-- The entry of a name comes from the contracts of this name. -/
theorem get?_declared_ofContracts_congr {contracts others : List ContractDef} {name : String}
    (same : contracts.filter (·.name = name) = others.filter (·.name = name)) :
    (ofContracts contracts).declared.get? name = (ofContracts others).declared.get? name := by
  have byFilter : ∀ contracts : List ContractDef,
      (ofContracts contracts).declared.get? name =
        ((contracts.filter (·.name = name)).reverse.find? fun contract =>
          contract.bases.isEmpty = false).map (·.bases) := by
    intro contracts
    rw [get?_declared_ofContracts, ← List.filter_reverse, List.find?_filter]
    simp
  rw [byFilter, byFilter, same]

/-- Contracts of different names make the same tree in any order. -/
theorem ofContracts_eq_of_perm {contracts others : List ContractDef}
    (distinct : (contracts.map (·.name)).Nodup) (perm : contracts.Perm others) :
    ofContracts contracts = ofContracts others := by
  have declaredEq : (ofContracts contracts).declared = (ofContracts others).declared := by
    apply NameMap.ext_get?
    intro name
    apply get?_declared_ofContracts_congr
    have different : contracts.Pairwise fun earlier later => earlier.name ≠ later.name :=
      List.pairwise_map.mp distinct
    have otherDifferent : others.Pairwise fun earlier later => earlier.name ≠ later.name :=
      List.pairwise_map.mp ((perm.map ContractDef.name).nodup distinct)
    -- At most one contract has the name, so there is nothing to reorder.
    refine List.Perm.eq_of_pairwise ?_ (different.filter _) (otherDifferent.filter _)
      (perm.filter _)
    intro contract other member otherMember differ
    rw [List.mem_filter, decide_eq_true_eq] at member otherMember
    exact absurd (member.2.trans otherMember.2.symm) differ
  exact congrArg InheritanceTree.mk declaredEq

/-- The base list of a name comes from the contracts of this name. -/
theorem basesOf_ofContracts_congr {contracts others : List ContractDef} {name : String}
    (same : contracts.filter (·.name = name) = others.filter (·.name = name)) :
    (ofContracts contracts).basesOf name = (ofContracts others).basesOf name := by
  rw [basesOf, basesOf, get?_declared_ofContracts_congr same]

/-- Only contracts of the list have bases. -/
theorem exists_contract_of_extends {contracts : List ContractDef} {base : String}
    (isBase : (ofContracts contracts).Extends contract base) :
    ∃ declaring ∈ contracts, declaring.name = contract := by
  rw [Extends, basesOf, get?_declared_ofContracts] at isBase
  cases found : contracts.reverse.find? fun declaring =>
      declaring.name = contract ∧ declaring.bases.isEmpty = false with
  | none =>
      rw [found] at isBase
      simp at isBase
  | some declaring =>
      have named := List.find?_some found
      simp only [decide_eq_true_eq] at named
      exact ⟨declaring, List.mem_reverse.mp (List.mem_of_find?_eq_some found), named.1⟩

end InheritanceTree

end SolidityModel
