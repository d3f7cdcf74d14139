import SolidityModel.Proofs.Contract.Inherited

/-!
# Entries of an aggregation

The entry of a name comes from the last contract of this name.  That holds of
every unit, whatever the order of its contracts and also where two of them share a
name.  What an entry says about its own members and about a failed linearization
follows from it (`ContractDetail.settled_ofContract`); what it inherits needs ancestors to
come first and is told elsewhere.
-/

namespace SolidityModel

/-! ## Own members -/

/-- The definition of a member that is a function or modifier. -/
def Member.callable? : Member → Option Callable
  | .callable definition => some definition
  | _ => none

/-- The functions and modifiers of a contract in the order of their
declarations. -/
def ContractDef.callables (contract : ContractDef) : List Callable :=
  contract.members.filterMap Member.callable?

/-- The constant that a member of a contract makes. -/
def Member.constant? (contract : String) : Member → Option ConstantVar
  | .stateVariable decl => ConstantVar.ofDecl? contract decl
  | _ => none

/-- The constants of a contract in the order of their declarations. -/
def ContractDef.constants (contract : ContractDef) : List ConstantVar :=
  contract.members.filterMap (Member.constant? contract.name)

/-- Where every step adds something behind a list, all steps together add the one
behind the other. -/
theorem foldl_append_eq {α β σ : Type} {step : σ → α → σ} {listOf : σ → List β}
    {added : α → List β}
    (appends : ∀ state item, listOf (step state item) = listOf state ++ added item)
    (items : List α) (state : σ) :
    listOf (items.foldl step state) = listOf state ++ items.flatMap added := by
  induction items generalizing state with
  | nil => simp
  | cons item rest ih =>
      rw [List.foldl_cons, ih, appends, List.flatMap_cons, List.append_assoc]

namespace OwnMembers

theorem callables_add (contract : String) (own : OwnMembers) (member : Member) :
    (own.add contract member).callables = own.callables ++ member.callable?.toList := by
  cases member with
  | stateVariable decl =>
      cases constant : ConstantVar.ofDecl? contract decl <;>
        simp [add, addVariable, constant, Member.callable?]
  | structDef | enumDef | callable | other => simp [add, Member.callable?]

theorem callables_ofContract (registry : TypeRegistry) (contract : ContractDef) :
    (ofContract registry contract).callables = contract.callables := by
  rw [ofContract, foldl_append_eq (callables_add contract.name), ContractDef.callables,
    List.filterMap_eq_flatMap_toList]
  rfl

theorem constants_add (contract : String) (own : OwnMembers) (member : Member) :
    (own.add contract member).constants =
      own.constants ++ (member.constant? contract).toList := by
  cases member with
  | stateVariable decl =>
      cases constant : ConstantVar.ofDecl? contract decl <;>
        simp [add, addVariable, constant, Member.constant?]
  | structDef | enumDef | callable | other => simp [add, Member.constant?]

/-- Whether a declaration is a constant does not depend on the types known. -/
theorem constants_ofContract (registry : TypeRegistry) (contract : ContractDef) :
    (ofContract registry contract).constants = contract.constants := by
  rw [ofContract, foldl_append_eq (constants_add contract.name), ContractDef.constants,
    List.filterMap_eq_flatMap_toList]
  rfl

end OwnMembers

namespace Aggregation

variable {linearization : Linearization}

theorem constants_visit (aggregation : Aggregation) (item : UnitItem) :
    (aggregation.visit linearization item).constants =
      aggregation.constants ++ item.contract?.toList.flatMap ContractDef.constants := by
  cases item with
  | contract definition =>
      simp [visit, visitContract, OwnMembers.constants_ofContract, UnitItem.contract?]
  | structDef | enumDef | pragma | other => simp [visit, UnitItem.contract?]

/-- A pass adds the constants of the contracts that it meets, in their order. -/
theorem constants_foldl_visit (items : List UnitItem) (aggregation : Aggregation) :
    (items.foldl (visit linearization) aggregation).constants =
      aggregation.constants ++
        (items.filterMap UnitItem.contract?).flatMap ContractDef.constants := by
  rw [foldl_append_eq constants_visit, List.filterMap_eq_flatMap_toList, List.flatMap_assoc]

end Aggregation

namespace ContractDetail

variable {contract : ContractDef} {own : OwnMembers}
  {ancestors : Except InheritanceError (List String)} {details : NameMap ContractDetail}

/-- The mappings of an entry are those of the own variables that have a mapping
type. -/
theorem mem_mappingNames_ofContract {mapping : String} :
    mapping ∈ (ofContract contract own ancestors details).mappingNames ↔
      ∃ declared ∈ own.stateVariables, declared.name = mapping ∧ declared.type.IsMapping := by
  simp only [mappingNames, ofContract, List.mem_map, List.mem_filterMap, MappingDecl.ofVariable?,
    Option.map_eq_some_iff, ResolvedType.keyType?_eq_some_iff, ResolvedType.IsMapping]
  constructor
  · rintro ⟨_, ⟨declared, member, keyType, isMapping, rfl⟩, rfl⟩
    exact ⟨declared, member, rfl, keyType, isMapping⟩
  · rintro ⟨declared, member, rfl, keyType, isMapping⟩
    exact ⟨_, ⟨declared, member, keyType, isMapping, rfl⟩, rfl⟩

/-- What an entry says about its ancestors.  Either they have an order, which it
lists without an error, or it has the one error of their linearization, no
ancestors, and nothing but the members of its own. -/
def Settled (detail : ContractDetail) (own : OwnMembers) :
    Except InheritanceError (List String) → Prop
  | .ok parents => detail.errors = [] ∧ detail.parents = parents
  | .error error => detail.errors = [error] ∧ detail.parents = [] ∧
      detail.stateVariables = own.stateVariables ∧
      ∀ function, function ∈ detail.functionNames ↔ function ∈ own.functionNames

theorem settled_ofContract : (ofContract contract own ancestors details).Settled own ancestors := by
  cases ancestors with
  | ok parents => exact ⟨rfl, rfl⟩
  | error error => exact ⟨rfl, rfl, rfl, fun function => NameSet.mem_ofList⟩

end ContractDetail

/-! ## The contract that a name stands for -/

namespace SourceUnit

/-- A name stands for the last contract of this name, and its members can refer to
the items in front of it. -/
structure Defines (unit : SourceUnit) (name : String) (before : List UnitItem)
    (contract : ContractDef) : Prop where
  name_eq : contract.name = name
  exists_after : ∃ after, unit.items = before ++ .contract contract :: after ∧
    name ∉ contractNames after

/-- The members of a contract, with its types resolved at its place. -/
def ownMembers (before : List UnitItem) (contract : ContractDef) : OwnMembers :=
  OwnMembers.ofContract (TypeRegistry.afterItems before) contract

variable {unit : SourceUnit} {name : String} {detail : ContractDetail} {before : List UnitItem}
  {contract : ContractDef}

/-- The constants of a unit are those of its contracts, one contract after the
other. -/
theorem constants_aggregation (unit : SourceUnit) :
    unit.aggregation.constants = unit.contracts.flatMap ContractDef.constants :=
  Aggregation.constants_foldl_visit unit.items .empty

theorem exists_last_of_mem {items : List UnitItem} (member : name ∈ contractNames items) :
    ∃ before contract after, items = before ++ .contract contract :: after ∧
      contract.name = name ∧ name ∉ contractNames after := by
  induction items with
  | nil => cases member
  | cons item rest ih =>
      by_cases later : name ∈ contractNames rest
      · rcases ih later with ⟨before, contract, after, rfl, nameEq, last⟩
        exact ⟨item :: before, contract, after, rfl, nameEq, last⟩
      · cases item with
        | contract definition =>
            rw [contractNames_cons_contract, List.mem_cons] at member
            exact ⟨[], definition, rest, rfl, (member.resolve_right later).symm, later⟩
        | structDef | enumDef | pragma | other => exact absurd member later

theorem exists_defines (member : name ∈ unit.contracts.map (·.name)) :
    ∃ before contract, unit.Defines name before contract := by
  rcases exists_last_of_mem member with ⟨before, contract, after, place, nameEq, last⟩
  exact ⟨before, contract, nameEq, after, place, last⟩

/-- The entry of a name comes from the contract that it stands for. -/
theorem get?_details_of_defines (defines : unit.Defines name before contract) :
    ∃ known, unit.aggregation.details.get? name =
      some (ContractDetail.ofContract contract (ownMembers before contract)
        (unit.inheritance.linearize.ancestorsOf name) known) := by
  rcases defines with ⟨rfl, after, place, last⟩
  refine ⟨(before.foldl (Aggregation.visit unit.inheritance.linearize) .empty).details, ?_⟩
  rw [aggregation, Aggregation.ofUnit, place]
  exact Aggregation.get?_details_of_place last

theorem exists_defines_of_details (found : unit.aggregation.details.get? name = some detail) :
    ∃ before contract known, unit.Defines name before contract ∧
      detail = ContractDetail.ofContract contract (ownMembers before contract)
        (unit.inheritance.linearize.ancestorsOf name) known := by
  rcases exists_contract_of_details found with ⟨contract, isContract, rfl⟩
  rcases exists_defines (List.mem_map_of_mem isContract) with ⟨before, contract, defines⟩
  rcases get?_details_of_defines defines with ⟨known, entry⟩
  exact ⟨before, contract, known, defines, Option.some.inj (found.symm.trans entry)⟩

/-- Every contract of a unit has an entry. -/
theorem exists_details_of_mem (isContract : contract ∈ unit.contracts) :
    ∃ detail, unit.aggregation.details.get? contract.name = some detail := by
  rcases exists_defines (List.mem_map_of_mem isContract) with ⟨before, last, defines⟩
  rcases get?_details_of_defines defines with ⟨known, entry⟩
  exact ⟨_, entry⟩

/-- The parents of an entry are the ancestors of its contract, none if they have no
order. -/
theorem parents_eq_of_details (found : unit.aggregation.details.get? name = some detail) :
    detail.parents = (unit.inheritance.linearize.ancestorsOf name).toOption.getD [] := by
  rcases exists_defines_of_details found with ⟨before, contract, known, -, rfl⟩
  rfl

theorem parents_of_details (found : unit.aggregation.details.get? name = some detail)
    {parents : List String}
    (linearized : unit.inheritance.linearize.ancestorsOf name = .ok parents) :
    detail.parents = parents := by
  rw [parents_eq_of_details found, linearized]
  rfl

theorem linearized_of_mem_parents (found : unit.aggregation.details.get? name = some detail)
    {parent : String} (isParent : parent ∈ detail.parents) :
    unit.inheritance.linearize.ancestorsOf name = .ok detail.parents := by
  have parentsEq := parents_eq_of_details found
  rw [parentsEq] at isParent
  rcases mem_getD_toOption_iff.mp isParent with ⟨parents, linearized, -⟩
  rw [parentsEq, linearized]
  rfl

theorem inherits_of_mem_parents (found : unit.aggregation.details.get? name = some detail)
    {parent : String} (isParent : parent ∈ detail.parents) :
    unit.inheritance.Inherits name parent := by
  have linearized := linearized_of_mem_parents found isParent
  rw [InheritanceTree.ancestorsOf_linearize] at linearized
  have derived := InheritanceTree.ancestorsOf_eq_ok_iff.mp linearized
  exact (derived.mem_ancestors_iff parent).mp isParent

theorem name_of_details (found : unit.aggregation.details.get? name = some detail) :
    detail.name = name := by
  rcases exists_defines_of_details found with ⟨before, contract, known, ⟨rfl, -⟩, rfl⟩
  rfl

theorem not_marked_of_details (found : unit.aggregation.details.get? name = some detail) :
    ∀ record ∈ detail.functions, record.writesMapping = false := by
  rcases exists_defines_of_details found with ⟨before, contract, known, -, rfl⟩
  intro record member
  rcases List.mem_map.mp member with ⟨definition, -, rfl⟩
  rfl

theorem definitions_of_defines (defines : unit.Defines name before contract)
    (found : unit.aggregation.details.get? name = some detail) :
    detail.functions.map (·.definition) = contract.callables := by
  rcases get?_details_of_defines defines with ⟨known, entry⟩
  rw [Option.some.inj (found.symm.trans entry)]
  simp [ContractDetail.ofContract, ownMembers, OwnMembers.callables_ofContract,
    Function.comp_def]

/-! ## Declared mappings -/

/-- A contract of the unit that goes by a name has a state variable of a mapping
type. -/
def DeclaresMapping (unit : SourceUnit) (name mapping : String) : Prop :=
  ∃ declared, unit.Declares name declared ∧ declared.name = mapping ∧ declared.type.IsMapping

/-- With different names every place of a contract is the one that its name stands
for. -/
theorem defines_of_place (distinct : (unit.contracts.map (·.name)).Nodup) {after : List UnitItem}
    (place : unit.items = before ++ .contract contract :: after) :
    unit.Defines contract.name before contract :=
  ⟨rfl, after, place, (not_mem_of_place distinct place).1⟩

theorem mem_mappingNames_iff (distinct : (unit.contracts.map (·.name)).Nodup)
    (found : unit.aggregation.details.get? name = some detail) {mapping : String} :
    mapping ∈ detail.mappingNames ↔ unit.DeclaresMapping name mapping := by
  constructor
  · intro member
    rcases exists_defines_of_details found with
      ⟨before, contract, known, ⟨rfl, after, place, -⟩, rfl⟩
    rcases ContractDetail.mem_mappingNames_ofContract.mp member with
      ⟨declared, isOwn, nameEq, isMapping⟩
    exact ⟨declared, declares_of_place place isOwn, nameEq, isMapping⟩
  · rintro ⟨declared, ⟨contract, -, rfl, before, after, place, declares⟩, nameEq, isMapping⟩
    rcases get?_details_of_defines (defines_of_place distinct place) with ⟨known, entry⟩
    rw [Option.some.inj (found.symm.trans entry)]
    exact ContractDetail.mem_mappingNames_ofContract.mpr
      ⟨declared, OwnMembers.mem_stateVariables_ofContract.mpr declares, nameEq, isMapping⟩

theorem exists_details_of_declaresMapping {mapping : String}
    (declares : unit.DeclaresMapping name mapping) :
    ∃ detail, unit.aggregation.details.get? name = some detail := by
  rcases declares with ⟨declared, ⟨contract, isContract, rfl, -⟩, -, -⟩
  exact exists_details_of_mem isContract

end SourceUnit

end SolidityModel
