import SolidityModel.Proofs.Analysis.Survey
import SolidityModel.Proofs.Inheritance.Locality

/-!
# The order of the contracts of a unit

A pass over a unit reads for each contract what it stored for the contracts before.
As long as ancestors come first, this makes no order better than another one: the
tables of two orders solve the same equations, and these have one solution, as an
ancestor has fewer ancestors.  So a unit whose contracts define no types may list
them in any such order (`SourceUnit.sameOutcome_of_reorders`).  Only the constants
follow the order of the contracts, and with the global scope the visible mappings.
-/

namespace SolidityModel

/-- Whether a member of a contract defines a type. -/
def Member.definesType : Member → Bool
  | .structDef _ => true
  | .enumDef _ => true
  | .stateVariable _ => false
  | .callable _ => false
  | .other _ => false

namespace TypeRegistry

variable {registry : TypeRegistry}

theorem afterMember_of_definesType_eq_false {member : Member}
    (noType : member.definesType = false) : registry.afterMember member = registry := by
  cases member with
  | structDef | enumDef => cases noType
  | stateVariable | callable | other => rfl

theorem afterItem_contract {contract : ContractDef}
    (noTypes : ∀ member ∈ contract.members, member.definesType = false) :
    registry.afterItem (.contract contract) = registry := by
  have unchanged : contract.members.foldl afterMember registry =
      contract.members.foldl (fun registry _ => registry) registry := by
    apply List.foldl_ext
    intro registry member isMember
    exact afterMember_of_definesType_eq_false (noTypes member isMember)
  exact unchanged.trans (List.foldl_fixed _)

end TypeRegistry

namespace SourceUnit

/-- Two units begin with the same items, without a contract among them, and then
list the same contracts, none of which defines a type, each unit in an order of its
own. -/
structure Reorders (first second : SourceUnit) : Prop where
  exists_opening : ∃ opening, (∀ item ∈ opening, item.contract? = none) ∧
    first.items = opening ++ first.contracts.map .contract ∧
    second.items = opening ++ second.contracts.map .contract
  perm : first.contracts.Perm second.contracts
  no_types : ∀ contract ∈ first.contracts, ∀ member ∈ contract.members,
    member.definesType = false

/-- Two units have the same outcome up to the order of their contracts. -/
structure SameOutcome (first second : SourceUnit) : Prop where
  details : first.aggregation.details = second.aggregation.details
  registry : first.aggregation.registry = second.aggregation.registry
  /-- The constants of a contract stay together and stand where the contract stands. -/
  constants : first.aggregation.constants = first.contracts.flatMap ContractDef.constants ∧
    second.aggregation.constants = second.contracts.flatMap ContractDef.constants
  contracts : ∀ config : Config, config.scope = .perContract →
    (first.analyze config).contracts = (second.analyze config).contracts
  mappingWrites : ∀ config : Config, config.scope = .perContract →
    (first.analyze config).mappingWrites = (second.analyze config).mappingWrites

variable {unit first second : SourceUnit} {opening before after : List UnitItem}
  {contract : ContractDef}

/-! ## Types known at a place -/

section Opening

variable (noContract : ∀ item ∈ opening, item.contract? = none)
  (opened : unit.items = opening ++ unit.contracts.map .contract)
  (noTypes : ∀ contract ∈ unit.contracts, ∀ member ∈ contract.members, member.definesType = false)

include noTypes

/-- Contracts without types change nothing of the types known. -/
theorem foldl_afterItem_contracts {contracts : List ContractDef}
    (subset : contracts ⊆ unit.contracts) (registry : TypeRegistry) :
    (contracts.map UnitItem.contract).foldl TypeRegistry.afterItem registry = registry := by
  induction contracts generalizing registry with
  | nil => rfl
  | cons contract rest ih =>
      rw [List.cons_subset] at subset
      rw [List.map_cons, List.foldl_cons,
        TypeRegistry.afterItem_contract (noTypes contract subset.1), ih subset.2]

include opened

theorem registry_of_opening : unit.aggregation.registry = TypeRegistry.afterItems opening := by
  rw [aggregation, Aggregation.ofUnit, Aggregation.registry_foldl_visit, opened,
    TypeRegistry.afterItems, List.foldl_append,
    foldl_afterItem_contracts noTypes (List.Subset.refl _)]
  rfl

include noContract

/-- At the place of a contract the types of the opening are known. -/
theorem afterItems_of_opening (place : unit.items = before ++ .contract contract :: after) :
    TypeRegistry.afterItems before = TypeRegistry.afterItems opening := by
  rcases List.append_eq_append_iff.mp (opened.symm.trans place) with
    ⟨front, rfl, rest⟩ | ⟨missing, rfl, rest⟩
  · rcases List.map_eq_append_iff.mp rest with ⟨frontContracts, others, split, rfl, -⟩
    rw [TypeRegistry.afterItems, List.foldl_append]
    apply foldl_afterItem_contracts noTypes
    rw [split]
    exact List.subset_append_left _ _
  · cases missing with
    | nil => rw [List.append_nil]
    | cons item missing =>
        rw [List.cons_append, List.cons.injEq] at rest
        have absent := noContract item (List.mem_append_right _ List.mem_cons_self)
        rw [← rest.1] at absent
        cases absent

/-- The entry of a contract, with the types that are known in front of all
contracts. -/
theorem details_of_opening (distinct : (unit.contracts.map (·.name)).Nodup)
    (ordered : unit.AncestorsFirst) (isContract : contract ∈ unit.contracts) :
    unit.aggregation.details.get? contract.name =
      some (ContractDetail.ofContract contract
        (OwnMembers.ofContract (TypeRegistry.afterItems opening) contract)
        (unit.inheritance.linearize.ancestorsOf contract.name) unit.aggregation.details) := by
  rcases exists_place_of_mem isContract with ⟨before, after, place⟩
  rw [← afterItems_of_opening noContract opened noTypes place]
  exact details_settled distinct ordered place

end Opening

/-! ## Two orders -/

namespace Reorders

variable (reorders : first.Reorders second) (distinct : (first.contracts.map (·.name)).Nodup)

include reorders

theorem other_no_types :
    ∀ contract ∈ second.contracts, ∀ member ∈ contract.members, member.definesType = false :=
  fun contract isContract => reorders.no_types contract (reorders.perm.mem_iff.mpr isContract)

theorem registry_eq : first.aggregation.registry = second.aggregation.registry := by
  rcases reorders.exists_opening with ⟨opening, -, opened, otherOpened⟩
  rw [registry_of_opening opened reorders.no_types,
    registry_of_opening otherOpened reorders.other_no_types]

include distinct

theorem other_distinct : (second.contracts.map (·.name)).Nodup :=
  (reorders.perm.map ContractDef.name).nodup distinct

theorem inheritance_eq : first.inheritance = second.inheritance :=
  InheritanceTree.ofContracts_eq_of_perm distinct reorders.perm

variable (ordered : first.AncestorsFirst) (otherOrdered : second.AncestorsFirst)

include ordered otherOrdered

/-- The tables are the same, entry by entry, once they are for the ancestors. -/
theorem details_eq : first.aggregation.details = second.aggregation.details := by
  rcases reorders.exists_opening with ⟨opening, noContract, opened, otherOpened⟩
  apply NameMap.ext_get?
  intro name
  induction name using InheritanceTree.ancestors_induction first.inheritance with
  | step name ih =>
      by_cases isName : name ∈ first.contracts.map (·.name)
      · rcases List.mem_map.mp isName with ⟨contract, isContract, rfl⟩
        rw [details_of_opening noContract opened reorders.no_types distinct ordered isContract,
          details_of_opening noContract otherOpened reorders.other_no_types
            (reorders.other_distinct distinct) otherOrdered
            (reorders.perm.mem_iff.mp isContract),
          ← reorders.inheritance_eq distinct, InheritanceTree.ancestorsOf_linearize]
        congr 1
        apply ContractDetail.ofContract_congr
        intro parent member
        rcases mem_getD_toOption_iff.mp member with ⟨parents, linearized, isParent⟩
        exact ih parents linearized parent isParent
      · have isNoOther : name ∉ second.contracts.map (·.name) := by
          intro isOther
          exact isName ((reorders.perm.map ContractDef.name).mem_iff.mpr isOther)
        rw [get?_details_eq_none isName, get?_details_eq_none isNoOther]

/-- With the narrower scope a contract sees the same mappings. -/
theorem visible_eq {config : Config} (isPerContract : config.scope = .perContract)
    (detail : ContractDetail) : first.visible config detail = second.visible config detail := by
  rw [visible_perContract first isPerContract, visible_perContract second isPerContract,
    reorders.details_eq distinct ordered otherOrdered]

end Reorders

/-- The contracts of a unit can be listed in any order in which ancestors come
first. -/
theorem sameOutcome_of_reorders (reorders : first.Reorders second)
    (distinct : (first.contracts.map (·.name)).Nodup) (ordered : first.AncestorsFirst)
    (otherOrdered : second.AncestorsFirst) : first.SameOutcome second := by
  have detailsEq := reorders.details_eq distinct ordered otherOrdered
  refine ⟨detailsEq, reorders.registry_eq, ?constants, ?contracts, ?writes⟩
  case constants =>
    exact ⟨constants_aggregation first, constants_aggregation second⟩
  case contracts =>
    intro config isPerContract
    apply NameMap.ext_get?
    intro name
    simp only [get?_contracts_analyze, detailsEq,
      reorders.visible_eq distinct ordered otherOrdered isPerContract]
  case writes =>
    intro config isPerContract
    simp only [mappingWrites_analyze, detailsEq,
      reorders.visible_eq distinct ordered otherOrdered isPerContract]

/-- Two sides of a common base, in one order or the other.  Each side writes to the
mapping of the base, whose values are of a struct defined in front. -/
def sidesUnit (flipped : Bool) : SourceUnit where
  items :=
    let uint : TypeName := .elementary "uint"
    let side (name limit : String) : ContractDef :=
      ⟨name, .contract, ["Base"],
        [.stateVariable ⟨"LIMIT", some uint, none, .constant, .literal limit⟩,
          .callable ⟨"put", .function, none, some [.expression (.assignment "="
            (.indexAccess (.identifier "items") (some (.identifier "id"))))], .null⟩]⟩
    [.structDef ⟨"Item", [⟨"price", some uint, none, .mutable, .absent⟩]⟩,
      .contract ⟨"Base", .contract, [],
        [.stateVariable ⟨"items", some (.mapping uint (.userDefined "Item" false)), none,
          .mutable, .absent⟩]⟩] ++
      (if flipped then [side "Right" "2", side "Left" "1"]
        else [side "Left" "1", side "Right" "2"]).map .contract

theorem sidesUnit_sameOutcome :
    (sidesUnit false).Reorders (sidesUnit true) ∧
    ((sidesUnit false).contracts.map (·.name)).Nodup ∧
    (sidesUnit false).AncestorsFirst ∧ (sidesUnit true).AncestorsFirst ∧
    (sidesUnit false).aggregation.constants.map (·.value) = ["1", "2"] ∧
    (sidesUnit true).aggregation.constants.map (·.value) = ["2", "1"] ∧
    (sidesUnit false).SameOutcome (sidesUnit true) := by
  have reorders : (sidesUnit false).Reorders (sidesUnit true) := by
    refine ⟨⟨(sidesUnit false).items.take 1, ?noContract, rfl, rfl⟩, ?perm, ?noTypes⟩
    case noContract =>
      intro item member
      rw [List.mem_singleton.mp member]
      rfl
    case perm => exact .cons _ (.swap _ _ _)
    case noTypes => decide +kernel
  have distinct : ((sidesUnit false).contracts.map (·.name)).Nodup := by decide +kernel
  have ordered : (sidesUnit false).AncestorsFirst := ancestorsFirst_of_pairwise (by decide +kernel)
  have otherOrdered : (sidesUnit true).AncestorsFirst :=
    ancestorsFirst_of_pairwise (by decide +kernel)
  exact ⟨reorders, distinct, ordered, otherOrdered, by decide +kernel, by decide +kernel,
    sameOutcome_of_reorders reorders distinct ordered otherOrdered⟩

end SourceUnit

end SolidityModel
