import SolidityModel.Proofs.Contract.Entry
import SolidityModel.Proofs.Inheritance.Locality

/-!
# Contracts of one name

Of several contracts of one name the last one makes the entry of the name.  The
inheritance tree enters a contract only if it has bases, so a later contract without
bases leaves those of an earlier one in place
(`SourceUnit.redefinition_keeps_bases`).
-/

namespace SolidityModel

/-- The last contract of a name in a list. -/
def lastContract? (name : String) (contracts : List ContractDef) : Option ContractDef :=
  (contracts.filter (·.name = name)).getLast?

/-- The base list of the last contract of a name, empty if there is none. -/
def lastBases (name : String) (contracts : List ContractDef) : List String :=
  ((lastContract? name contracts).map (·.bases)).getD []

variable {name : String} {contracts : List ContractDef} {last : ContractDef}

theorem mem_of_lastContract? (isLast : lastContract? name contracts = some last) :
    last ∈ contracts ∧ last.name = name := by
  simpa using List.mem_filter.mp (List.mem_of_getLast? isLast)

theorem lastContract?_append_cons {before after : List ContractDef} (named : last.name = name)
    (none : name ∉ after.map (·.name)) :
    lastContract? name (before ++ last :: after) = some last := by
  have noneLater : after.filter (·.name = name) = [] := by
    simpa [List.filter_eq_nil_iff] using none
  simp [lastContract?, List.filter_append, named, noneLater]

/-- A last contract of its name is also the last one among those that pass a test,
if it passes. -/
theorem lastContract?_filter {keep : ContractDef → Bool}
    (isLast : lastContract? name contracts = some last) (kept : keep last = true) :
    lastContract? name (contracts.filter keep) = some last := by
  obtain ⟨front, split⟩ := List.getLast?_eq_some_iff.mp isLast
  rw [lastContract?, List.filter_comm, split]
  simp [List.filter_append, kept]

namespace InheritanceTree

/-- The tree has the bases of the last contract of a name that has any. -/
theorem basesOf_ofContracts (contracts : List ContractDef) (name : String) :
    (ofContracts contracts).basesOf name =
      lastBases name (contracts.filter fun contract => contract.bases ≠ []) := by
  rw [basesOf, get?_declared_ofContracts, lastBases, lastContract?, List.filter_filter,
    List.getLast?_eq_head?_reverse, ← List.filter_reverse, List.head?_filter]
  simp

theorem basesOf_ofContracts_eq_nil_iff :
    (ofContracts contracts).basesOf name = [] ↔
      ∀ contract ∈ contracts, contract.name = name → contract.bases = [] := by
  rw [basesOf_ofContracts, lastBases]
  cases isLast : lastContract? name (contracts.filter fun contract => contract.bases ≠ []) with
  | none =>
      rw [lastContract?, List.getLast?_eq_none_iff, List.filter_eq_nil_iff] at isLast
      simpa [imp.swap, not_imp_not] using isLast
  | some last =>
      have member := mem_of_lastContract? isLast
      rw [List.mem_filter] at member
      have hasBases : last.bases ≠ [] := by simpa using member.1.2
      simp only [Option.map_some, Option.getD_some, hasBases, false_iff]
      exact fun noBases => hasBases (noBases last member.1.1 member.2)

/-- A later contract replaces the bases of an earlier one as long as it has any, or
the earlier one has none. -/
theorem basesOf_ofContracts_eq_iff :
    (ofContracts contracts).basesOf name = lastBases name contracts ↔
      ∀ last, lastContract? name contracts = some last → last.bases = [] →
        ∀ contract ∈ contracts, contract.name = name → contract.bases = [] := by
  cases isLast : lastContract? name contracts with
  | none =>
      rw [lastContract?, List.getLast?_eq_none_iff, List.filter_eq_nil_iff] at isLast
      have noBases : (ofContracts contracts).basesOf name = [] :=
        basesOf_ofContracts_eq_nil_iff.mpr fun contract member named =>
          absurd (by simpa using named) (isLast contract member)
      simp [noBases, lastBases, lastContract?, List.filter_eq_nil_iff.mpr isLast]
  | some last =>
      by_cases noBases : last.bases = []
      · simp [lastBases, isLast, noBases, basesOf_ofContracts_eq_nil_iff]
      · rw [basesOf_ofContracts, lastBases, lastBases, isLast,
          lastContract?_filter isLast (by simpa using noBases)]
        simp [noBases]

end InheritanceTree

namespace SourceUnit

variable {unit : SourceUnit} {before : List UnitItem}

/-- The contract that a name stands for is the last one of the name. -/
theorem lastContract?_of_defines {contract : ContractDef}
    (defines : unit.Defines name before contract) :
    lastContract? name unit.contracts = some contract := by
  obtain ⟨named, after, place, noneLater⟩ := defines
  have split : unit.contracts = before.filterMap UnitItem.contract? ++
      contract :: after.filterMap UnitItem.contract? := by
    rw [contracts, place, List.filterMap_append]
    rfl
  rw [split]
  exact lastContract?_append_cons named noneLater

/-- The last contract of a name makes the entry of the name. -/
theorem exists_details_of_lastContract? (isLast : lastContract? name unit.contracts = some last) :
    ∃ detail, unit.aggregation.details.get? name = some detail ∧
      detail.kind = last.kind ∧ detail.functions.map (·.definition) = last.callables ∧
      detail.parents = (unit.inheritance.ancestorsOf name).toOption.getD [] := by
  obtain ⟨member, rfl⟩ := mem_of_lastContract? isLast
  obtain ⟨before, contract, defines⟩ := exists_defines (List.mem_map_of_mem member)
  have sameContract : contract = last :=
    Option.some.inj ((lastContract?_of_defines defines).symm.trans isLast)
  subst sameContract
  obtain ⟨known, entry⟩ := get?_details_of_defines defines
  refine ⟨_, entry, rfl, definitions_of_defines defines entry, ?_⟩
  rw [parents_eq_of_details entry, InheritanceTree.ancestorsOf_linearize]

/-- The tree has the bases of the last contract of a name with any, so a later
contract leaves those of an earlier one in place exactly where it has none and the
earlier one has some.  The entry of the name is made by the last contract all the
same, but for its ancestors, which are those of the tree. -/
theorem redefinition_keeps_bases (contracts : List ContractDef) (name : String) :
    (InheritanceTree.ofContracts contracts).basesOf name =
      lastBases name (contracts.filter fun contract => contract.bases ≠ []) ∧
    ((InheritanceTree.ofContracts contracts).basesOf name = lastBases name contracts ↔
      ∀ last, lastContract? name contracts = some last → last.bases = [] →
        ∀ contract ∈ contracts, contract.name = name → contract.bases = []) ∧
    ∀ unit : SourceUnit, unit.contracts = contracts →
      ∀ last, lastContract? name contracts = some last →
        ∃ detail, unit.aggregation.details.get? name = some detail ∧
          detail.kind = last.kind ∧ detail.functions.map (·.definition) = last.callables ∧
          detail.parents =
            ((InheritanceTree.ofContracts contracts).ancestorsOf name).toOption.getD [] := by
  refine ⟨InheritanceTree.basesOf_ofContracts contracts name,
    InheritanceTree.basesOf_ofContracts_eq_iff, ?_⟩
  intro unit sameContracts last isLast
  subst sameContracts
  exact exists_details_of_lastContract? isLast

/-- A contract that is defined again without its base. -/
def orphanUnit : SourceUnit where
  items := [
    .contract ⟨"Token", .contract, [], []⟩,
    .contract ⟨"Sale", .contract, ["Token"], []⟩,
    .contract ⟨"Sale", .library, [], []⟩]

/-- The second definition makes the entry and still inherits from the base of the
first one. -/
theorem orphanUnit_keeps_bases :
    lastBases "Sale" orphanUnit.contracts = [] ∧
      orphanUnit.inheritance.basesOf "Sale" = ["Token"] ∧
      (orphanUnit.aggregation.details.get? "Sale").map
        (fun detail => (detail.kind, detail.parents)) = some (.library, ["Token"]) := by
  refine ⟨?_, ?_, ?_⟩ <;> decide +kernel

end SourceUnit

end SolidityModel
