import SolidityModel.Proofs.Analysis.Survey
import SolidityModel.Proofs.Inheritance.Locality

/-!
# What stands further down in a unit

Linearization, the registry of mappings and the search for writes all run over a
complete unit, and types that are defined again replace earlier ones.  Still,
nothing of this leads back: items that follow on a unit leave its entries, its
records of writes and its constants as they are (`SourceUnit.analyze_followedBy`),
as long as they do not define a contract that the unit already refers to.
-/

namespace SolidityModel

/-- A pass asks for the ancestors of the contracts that it meets and of no others. -/
theorem Aggregation.foldl_visit_congr_ancestors {linearization other : Linearization}
    {items : List UnitItem}
    (same : ∀ name ∈ contractNames items, linearization.ancestorsOf name = other.ancestorsOf name)
    (aggregation : Aggregation) :
    items.foldl (visit linearization) aggregation = items.foldl (visit other) aggregation := by
  induction items generalizing aggregation with
  | nil => rfl
  | cons item rest ih =>
      cases item with
      | contract definition =>
          rw [contractNames_cons_contract, List.forall_mem_cons] at same
          rw [List.foldl_cons, List.foldl_cons, ih same.2, visit, visit, visitContract,
            visitContract, same.1]
      | structDef | enumDef | pragma | other => exact ih same _

namespace SourceUnit

/-- A unit with further items behind its own. -/
def followedBy (unit : SourceUnit) (later : List UnitItem) : SourceUnit where
  items := unit.items ++ later

/-- The items define no contract that the unit has or that its contracts inherit
from. -/
structure Foreign (unit : SourceUnit) (later : List UnitItem) : Prop where
  not_defined : ∀ name ∈ contractNames later, name ∉ unit.contracts.map (·.name)
  not_inherited : ∀ name ∈ contractNames later, ∀ contract ∈ unit.contracts,
    ¬unit.inheritance.Inherits contract.name name

variable {unit : SourceUnit} {later : List UnitItem} {config : Config} {name : String}
  {contract : ContractDef} {detail : ContractDetail}

theorem contracts_followedBy (unit : SourceUnit) (later : List UnitItem) :
    (unit.followedBy later).contracts = unit.contracts ++ later.filterMap UnitItem.contract? :=
  List.filterMap_append

/-- What a contract of the unit reaches is not defined later. -/
theorem Foreign.not_mem_of_reaches (foreign : unit.Foreign later)
    (isContract : contract ∈ unit.contracts)
    (reaches : unit.inheritance.Reaches contract.name name) : name ∉ contractNames later := by
  intro isLater
  rcases InheritanceTree.reaches_iff_eq_or_inherits.mp reaches with rfl | inherits
  · exact foreign.not_defined contract.name isLater (List.mem_map_of_mem isContract)
  · exact foreign.not_inherited name isLater contract isContract inherits

/-! ## The tables -/

theorem basesOf_followedBy (absent : name ∉ contractNames later) :
    unit.inheritance.basesOf name = (unit.followedBy later).inheritance.basesOf name := by
  apply InheritanceTree.basesOf_ofContracts_congr
  have none : (later.filterMap UnitItem.contract?).filter (·.name = name) = [] := by
    apply List.filter_eq_nil_iff.mpr
    intro contract isLater
    rw [decide_eq_true_eq]
    intro same
    exact absent (same ▸ List.mem_map_of_mem isLater)
  rw [contracts_followedBy, List.filter_append, none, List.append_nil]

theorem Foreign.ancestorsOf_eq (foreign : unit.Foreign later)
    (isContract : contract ∈ unit.contracts) :
    unit.inheritance.linearize.ancestorsOf contract.name =
      (unit.followedBy later).inheritance.linearize.ancestorsOf contract.name := by
  rw [InheritanceTree.ancestorsOf_linearize, InheritanceTree.ancestorsOf_linearize]
  apply InheritanceTree.ancestorsOf_congr
  intro name reaches
  exact basesOf_followedBy (foreign.not_mem_of_reaches isContract reaches)

/-- The pass over the longer unit goes on where the pass over the unit ends. -/
theorem Foreign.aggregation_eq (foreign : unit.Foreign later) :
    (unit.followedBy later).aggregation =
      later.foldl (Aggregation.visit (unit.followedBy later).inheritance.linearize)
        unit.aggregation := by
  rw [aggregation, Aggregation.ofUnit, followedBy, List.foldl_append]
  congr 1
  apply Aggregation.foldl_visit_congr_ancestors
  intro name member
  rcases List.mem_map.mp member with ⟨contract, isContract, rfl⟩
  exact (foreign.ancestorsOf_eq isContract).symm

/-- What a contract of the unit reaches has the same entry, or none in both. -/
theorem Foreign.details_eq (foreign : unit.Foreign later) (isContract : contract ∈ unit.contracts)
    (reaches : unit.inheritance.Reaches contract.name name) :
    (unit.followedBy later).aggregation.details.get? name =
      unit.aggregation.details.get? name := by
  rw [foreign.aggregation_eq]
  exact Aggregation.get?_details_foldl_visit (foreign.not_mem_of_reaches isContract reaches) _

/-- The mappings met up to a contract of the unit are the same. -/
theorem Foreign.declaredUpTo_eq (foreign : unit.Foreign later)
    (isContract : contract ∈ unit.contracts) (scope : MappingScope) :
    ((unit.followedBy later).mappings scope).declaredUpTo.get? contract.name =
      (unit.mappings scope).declaredUpTo.get? contract.name := by
  rcases List.eq_append_cons_of_mem (List.mem_map_of_mem (f := (·.name)) isContract) with
    ⟨before, after, order, fresh⟩
  rw [mappings, mappings, contracts_followedBy, List.map_append, order, List.append_assoc,
    List.cons_append, MappingRegistry.get?_declaredUpTo_ofContracts fresh,
    MappingRegistry.get?_declaredUpTo_ofContracts fresh]
  congr 2
  apply MappingRegistry.foldl_visit_congr
  intro name member
  have isName : name ∈ unit.contracts.map (·.name) := by
    rw [order, List.append_cons]
    exact List.mem_append_left after member
  rcases List.mem_map.mp isName with ⟨other, isOther, rfl⟩
  rw [foreign.details_eq isOther .refl]

/-- A contract of the unit sees the same mappings. -/
theorem Foreign.visible_eq (foreign : unit.Foreign later)
    (found : unit.aggregation.details.get? name = some detail) :
    (unit.followedBy later).visible config detail = unit.visible config detail := by
  rcases exists_contract_of_details found with ⟨contract, isContract, rfl⟩
  cases scope : config.scope with
  | global =>
      rw [visible_global _ scope, visible_global _ scope, name_of_details found,
        foreign.declaredUpTo_eq isContract]
  | perContract =>
      rw [visible_perContract _ scope, visible_perContract _ scope]
      have known : knownDetails (unit.followedBy later).aggregation.details detail.parents =
          knownDetails unit.aggregation.details detail.parents := by
        apply knownDetails_congr
        intro parent isParent
        exact foreign.details_eq isContract (inherits_of_mem_parents found isParent).to_reflTransGen
      rw [known]

/-- The entries of the contracts of the unit are the entries of the unit. -/
theorem Foreign.filter_details_eq (foreign : unit.Foreign later) :
    ((unit.followedBy later).aggregation.details.filter fun name _ =>
      decide (name ∈ unit.contracts.map (·.name))) = unit.aggregation.details := by
  apply NameMap.ext_get?
  intro name
  apply Option.ext
  intro detail
  rw [NameMap.get?_filter_eq_some_iff, decide_eq_true_eq]
  constructor
  · intro both
    rcases both with ⟨found, member⟩
    rcases List.mem_map.mp member with ⟨contract, isContract, rfl⟩
    rwa [foreign.details_eq isContract .refl] at found
  · intro found
    rcases exists_contract_of_details found with ⟨contract, isContract, rfl⟩
    rw [foreign.details_eq isContract .refl]
    exact ⟨found, List.mem_map_of_mem isContract⟩

end SourceUnit

/-! ## The analyses -/

/-- An analysis keeps what an earlier one says, whose contracts have the given
names. -/
structure UnitAnalysis.Keeps (analysis earlier : UnitAnalysis) (names : List String) : Prop where
  contracts : ∀ name ∈ names, ∃ detail, earlier.contracts.get? name = some detail ∧
    analysis.contracts.get? name = some detail
  mappingWrites : analysis.mappingWrites.filter (·.contract ∈ names) = earlier.mappingWrites
  constants : earlier.constants <+: analysis.constants

namespace SourceUnit

variable {unit : SourceUnit} {later : List UnitItem}

/-- Items that follow on a unit change nothing of what an analysis says about the
contracts of the unit. -/
theorem analyze_followedBy (foreign : unit.Foreign later) (config : Config) :
    ((unit.followedBy later).analyze config).Keeps (unit.analyze config)
      (unit.contracts.map (·.name)) := by
  refine ⟨?contracts, ?writes, ?constants⟩
  case contracts =>
    intro name member
    rcases List.mem_map.mp member with ⟨contract, isContract, rfl⟩
    rcases exists_details_of_mem isContract with ⟨detail, found⟩
    have laterFound := (foreign.details_eq isContract .refl).trans found
    refine ⟨_, get?_contracts_of_details found, ?_⟩
    rw [get?_contracts_of_details laterFound, foreign.visible_eq found]
  case writes =>
    rw [mappingWrites_analyze, mappingWrites_analyze,
      NameMap.filter_flatMap_values_of_names contract_of_writeRecords
        fun name => decide (name ∈ unit.contracts.map (·.name)),
      foreign.filter_details_eq]
    apply List.flatMap_congr
    intro detail isValue
    rcases NameMap.exists_get?_of_mem_values isValue with ⟨name, found⟩
    rw [foreign.visible_eq found]
  case constants =>
    change unit.aggregation.constants <+: (unit.followedBy later).aggregation.constants
    rw [constants_aggregation, constants_aggregation, contracts_followedBy, List.flatMap_append]
    exact List.prefix_append _ _

/-- A stock of items, each a struct with a price. -/
def stockUnit : SourceUnit where
  items :=
    let uint : TypeName := .elementary "uint"
    [.structDef ⟨"Item", [⟨"price", some uint, none, .mutable, .absent⟩]⟩,
      .contract ⟨"Stock", .contract, [],
        [.stateVariable ⟨"LIMIT", some uint, none, .constant, .literal "10"⟩,
          .stateVariable ⟨"items", some (.mapping uint (.userDefined "Item" false)), none,
            .mutable, .absent⟩,
          .callable ⟨"put", .function, none, some [.expression (.assignment "="
            (.indexAccess (.identifier "items") (some (.identifier "id"))))], .null⟩]⟩]

/-- A struct and a contract that take up names of the stock: the struct is one of the
same name, and the contract writes to the same mapping. -/
def saleItems : List UnitItem :=
  [.structDef ⟨"Item", []⟩,
    .contract ⟨"Sale", .contract, ["Stock"],
      [.stateVariable ⟨"RATE", some (.elementary "uint"), none, .constant, .literal "2"⟩,
        .callable ⟨"sell", .function, none, some [.expression (.assignment "="
          (.indexAccess (.identifier "items") (some (.identifier "id"))))], .null⟩]⟩]

theorem stockUnit_kept :
    stockUnit.Foreign saleItems ∧
    ((stockUnit.followedBy saleItems).analyze ⟨.global, false, none⟩).mappingWrites =
      [⟨"Sale", "sell", "items", ["sell", "id"]⟩, ⟨"Stock", "put", "items", ["put", "id"]⟩] ∧
    ((stockUnit.followedBy saleItems).analyze ⟨.global, false, none⟩).Keeps
      (stockUnit.analyze ⟨.global, false, none⟩) ["Stock"] := by
  have foreign : stockUnit.Foreign saleItems := by
    constructor
    · decide +kernel
    · intro name isLater contract isContract inherits
      rw [List.mem_singleton.mp isContract, InheritanceTree.inherits_iff] at inherits
      rcases inherits with ⟨base, isBase, -⟩
      cases isBase
  exact ⟨foreign, by decide +kernel, analyze_followedBy foreign ⟨.global, false, none⟩⟩

end SourceUnit

end SolidityModel
