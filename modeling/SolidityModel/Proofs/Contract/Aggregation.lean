import Mathlib.Data.List.Basic
import SolidityModel.Contract.Aggregation
import SolidityModel.Proofs.Inheritance.Linearization

/-!
# The table of an aggregation

A pass over a unit enters one contract after another, each from what the table
holds so far.  Where contracts have different names and ancestors come first, the
table that the pass ends with solves the same equations all at once: the entry of
a contract is what its own members and the entries of its ancestors in the
finished table add up to (`SourceUnit.details_settled`).  Later arguments about
what is inherited read this equation and not the pass.
-/

namespace SolidityModel

/-! ## Types known at a place -/

namespace TypeRegistry

/-- The types known after a member of a contract. -/
def afterMember (registry : TypeRegistry) : Member → TypeRegistry
  | .structDef definition => registry.registerStruct definition
  | .enumDef definition => registry.registerEnum definition
  | .stateVariable _ => registry
  | .callable _ => registry
  | .other _ => registry

/-- The types known after an item of a unit. -/
def afterItem (registry : TypeRegistry) : UnitItem → TypeRegistry
  | .contract definition => definition.members.foldl afterMember registry
  | .structDef definition => registry.registerStruct definition
  | .enumDef definition => registry.registerEnum definition
  | .pragma _ _ => registry
  | .other _ => registry

/-- The types known after the first items of a unit. -/
def afterItems (items : List UnitItem) : TypeRegistry :=
  items.foldl afterItem empty

end TypeRegistry

namespace OwnMembers

theorem registry_add (contract : String) (own : OwnMembers) (member : Member) :
    (own.add contract member).registry = own.registry.afterMember member := by
  cases member with
  | stateVariable decl =>
      simp only [add, addVariable, TypeRegistry.afterMember]
      split <;> rfl
  | structDef | enumDef | callable | other => rfl

theorem registry_ofContract (registry : TypeRegistry) (contract : ContractDef) :
    (ofContract registry contract).registry =
      registry.afterItem (.contract contract) :=
  (List.foldl_hom OwnMembers.registry fun own member =>
    (registry_add contract.name own member).symm).symm

end OwnMembers

namespace Aggregation

variable {linearization : Linearization}

theorem registry_visit (aggregation : Aggregation) (item : UnitItem) :
    (aggregation.visit linearization item).registry = aggregation.registry.afterItem item := by
  cases item with
  | contract definition => exact OwnMembers.registry_ofContract aggregation.registry definition
  | structDef | enumDef | pragma | other => rfl

theorem registry_foldl_visit (items : List UnitItem) :
    (items.foldl (visit linearization) empty).registry = TypeRegistry.afterItems items :=
  (List.foldl_hom Aggregation.registry fun aggregation item =>
    (registry_visit aggregation item).symm).symm

end Aggregation

/-! ## Entries of the table -/

/-- The names of the contracts among items of a unit. -/
def contractNames (items : List UnitItem) : List String :=
  (items.filterMap UnitItem.contract?).map (·.name)

theorem contractNames_append (before after : List UnitItem) :
    contractNames (before ++ after) = contractNames before ++ contractNames after := by
  simp [contractNames]

theorem contractNames_cons_contract (contract : ContractDef) (items : List UnitItem) :
    contractNames (.contract contract :: items) = contract.name :: contractNames items := rfl

namespace Aggregation

variable {linearization : Linearization} {name : String}

/-- A pass changes no entry but those of the contracts that it meets. -/
theorem get?_details_foldl_visit {items : List UnitItem} (absent : name ∉ contractNames items)
    (aggregation : Aggregation) :
    (items.foldl (visit linearization) aggregation).details.get? name =
      aggregation.details.get? name := by
  induction items generalizing aggregation with
  | nil => rfl
  | cons item rest ih =>
      cases item with
      | contract definition =>
          rw [contractNames_cons_contract, List.mem_cons, not_or] at absent
          rw [List.foldl_cons, ih absent.2, visit, visitContract, NameMap.get?_insert,
            if_neg absent.1]
      | structDef | enumDef | pragma | other => exact ih absent _

/-- The entry of a contract comes from its own members, at its place, and from
the entries before it. -/
theorem get?_details_of_place {before after : List UnitItem} {contract : ContractDef}
    (last : contract.name ∉ contractNames after) :
    ((before ++ .contract contract :: after).foldl (visit linearization) empty).details.get?
        contract.name =
      some (ContractDetail.ofContract contract
        (OwnMembers.ofContract (TypeRegistry.afterItems before) contract)
        (linearization.ancestorsOf contract.name)
        (before.foldl (visit linearization) empty).details) := by
  rw [List.foldl_append, List.foldl_cons, get?_details_foldl_visit last, visit, visitContract,
    NameMap.get?_insert, if_pos rfl, registry_foldl_visit]

end Aggregation

theorem mem_getD_toOption_iff {ε : Type} {outcome : Except ε (List String)} {name : String} :
    name ∈ outcome.toOption.getD [] ↔ ∃ names, outcome = .ok names ∧ name ∈ names := by
  cases outcome <;> simp [Except.toOption]

theorem knownDetails_congr {details others : NameMap ContractDetail} {names : List String}
    (same : ∀ name ∈ names, details.get? name = others.get? name) :
    knownDetails details names = knownDetails others names :=
  List.filterMap_congr same

theorem ContractDetail.ofContract_congr {contract : ContractDef} {own : OwnMembers}
    {ancestors : Except InheritanceError (List String)} {details others : NameMap ContractDetail}
    (same : ∀ name ∈ ancestors.toOption.getD [], details.get? name = others.get? name) :
    ofContract contract own ancestors details = ofContract contract own ancestors others := by
  simp only [ofContract, knownDetails_congr same]

/-! ## The equations of the finished table -/

namespace SourceUnit

/-- The direct bases of the contracts of a unit. -/
def inheritance (unit : SourceUnit) : InheritanceTree :=
  InheritanceTree.ofContracts unit.contracts

/-- What a pass over a unit gathers, with the ancestors that its contracts have. -/
def aggregation (unit : SourceUnit) : Aggregation :=
  Aggregation.ofUnit unit unit.inheritance.linearize

/-- Every ancestor of a contract that the unit defines is defined before the
contract. -/
def AncestorsFirst (unit : SourceUnit) : Prop :=
  ∀ before contract after, unit.contracts = before ++ contract :: after →
    ∀ parents, unit.inheritance.linearize.ancestorsOf contract.name = .ok parents →
      ∀ name ∈ parents, name ∈ unit.contracts.map (·.name) → name ∈ before.map (·.name)

variable {unit : SourceUnit} {before after : List UnitItem} {contract : ContractDef}

/-- With different names what is defined at a place or before it is not defined
again behind it. -/
theorem not_mem_of_place (distinct : (unit.contracts.map (·.name)).Nodup)
    (place : unit.items = before ++ .contract contract :: after) :
    contract.name ∉ contractNames after ∧
      ∀ name ∈ contractNames before, name ∉ contractNames (.contract contract :: after) := by
  have names : (contractNames (before ++ .contract contract :: after)).Nodup := place ▸ distinct
  rw [contractNames_append, List.nodup_append] at names
  rcases names with ⟨_, laterNodup, different⟩
  exact ⟨(List.nodup_cons.mp laterNodup).1,
    fun name member later => different name member name later rfl⟩

/-- No ancestor is defined at or behind the place of a contract. -/
theorem parent_not_mem_after (distinct : (unit.contracts.map (·.name)).Nodup)
    (ordered : unit.AncestorsFirst) (place : unit.items = before ++ .contract contract :: after)
    {parents : List String}
    (linearized : unit.inheritance.linearize.ancestorsOf contract.name = .ok parents) :
    ∀ name ∈ parents, name ∉ contractNames (.contract contract :: after) := by
  intro name member later
  have split : unit.contracts = before.filterMap UnitItem.contract? ++
      contract :: after.filterMap UnitItem.contract? := by
    rw [contracts, place, List.filterMap_append]
    rfl
  have defined : name ∈ unit.contracts.map (·.name) := by
    rw [split, List.map_append]
    exact List.mem_append_right _ later
  exact (not_mem_of_place distinct place).2 name
    (ordered _ _ _ split parents linearized name member defined) later

/-- It is enough that no contract is an ancestor of one in front of it. -/
theorem ancestorsFirst_of_pairwise
    (later : unit.contracts.Pairwise fun earlier later =>
      later.name ∉ (unit.inheritance.ancestorsOf earlier.name).toOption.getD []) :
    unit.AncestorsFirst := by
  intro before contract after split parents linearized name member defined
  rw [InheritanceTree.ancestorsOf_linearize] at linearized
  rw [split, List.pairwise_append, List.pairwise_cons] at later
  rcases later with ⟨_, ⟨behind, _⟩, _⟩
  rw [split, List.map_append, List.map_cons, List.mem_append, List.mem_cons] at defined
  rcases defined with inFront | rfl | inRest
  · exact inFront
  · have derived := InheritanceTree.ancestorsOf_eq_ok_iff.mp linearized
    exact absurd ((derived.mem_ancestors_iff contract.name).mp member) derived.not_inherits_self
  · rcases List.mem_map.mp inRest with ⟨other, otherMember, rfl⟩
    have notAncestor := behind other otherMember
    rw [linearized] at notAncestor
    exact absurd member notAncestor

/-- The entry of a contract is what its own members and the entries of its
ancestors in the same table add up to. -/
theorem details_settled (distinct : (unit.contracts.map (·.name)).Nodup)
    (ordered : unit.AncestorsFirst)
    (place : unit.items = before ++ .contract contract :: after) :
    unit.aggregation.details.get? contract.name =
      some (ContractDetail.ofContract contract
        (OwnMembers.ofContract (TypeRegistry.afterItems before) contract)
        (unit.inheritance.linearize.ancestorsOf contract.name)
        unit.aggregation.details) := by
  rw [aggregation, Aggregation.ofUnit, place,
    Aggregation.get?_details_of_place (not_mem_of_place distinct place).1]
  congr 1
  apply ContractDetail.ofContract_congr
  intro name member
  rcases mem_getD_toOption_iff.mp member with ⟨parents, linearized, isParent⟩
  rw [List.foldl_append, Aggregation.get?_details_foldl_visit
    (parent_not_mem_after distinct ordered place linearized name isParent)]

/-- Only contracts of the unit have entries. -/
theorem exists_contract_of_details {name : String} {detail : ContractDetail}
    (found : unit.aggregation.details.get? name = some detail) :
    ∃ contract ∈ unit.contracts, contract.name = name := by
  by_contra undefined
  have absent : name ∉ contractNames unit.items := fun member =>
    undefined (List.mem_map.mp member)
  rw [aggregation, Aggregation.ofUnit, Aggregation.get?_details_foldl_visit absent] at found
  cases found

theorem get?_details_eq_none {name : String} (undefined : name ∉ unit.contracts.map (·.name)) :
    unit.aggregation.details.get? name = none := by
  apply Option.eq_none_iff_forall_ne_some.mpr
  intro detail found
  rcases exists_contract_of_details found with ⟨contract, isContract, rfl⟩
  exact undefined (List.mem_map_of_mem isContract)

theorem mem_contracts_of_place (place : unit.items = before ++ .contract contract :: after) :
    contract ∈ unit.contracts := by
  rw [contracts, place]
  simp [UnitItem.contract?]

/-- Every contract of a unit has its place among the items. -/
theorem exists_place_of_mem (member : contract ∈ unit.contracts) :
    ∃ before after, unit.items = before ++ .contract contract :: after := by
  rcases List.mem_filterMap.mp member with ⟨item, itemMember, isContract⟩
  cases item with
  | contract definition =>
      cases isContract
      exact List.append_of_mem itemMember
  | structDef | enumDef | pragma | other => cases isContract

end SourceUnit

end SolidityModel
