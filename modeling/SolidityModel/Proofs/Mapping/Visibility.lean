import SolidityModel.Mapping.Registry
import SolidityModel.Proofs.Contract.Entry

/-!
# Which mappings a contract sees

The registry of a unit goes through the contracts in the order in which they are
written and keeps, for each of them, the mappings met so far.  What a contract
sees is said here by declarations alone (`SourceUnit.SeesMapping`), and the sets
that the registry answers are the same (`SourceUnit.mem_visibleTo_iff`).
-/

namespace SolidityModel

namespace MappingRegistry

variable {details : NameMap ContractDetail} {scope : MappingScope} {registry : MappingRegistry}
  {order : List String} {contract mapping : String}

/-! ## Going through the contracts -/

theorem scope_foldl_visit (order : List String) (registry : MappingRegistry) :
    (order.foldl (visit details) registry).scope = registry.scope := by
  induction order generalizing registry with
  | nil => rfl
  | cons name rest ih => exact ih _

theorem mem_all_visit_iff :
    mapping ∈ (registry.visit details contract).all ↔ mapping ∈ registry.all ∨
      ∃ detail, details.get? contract = some detail ∧ mapping ∈ detail.mappingNames := by
  rw [visit, NameSet.mem_addAll]
  cases found : details.get? contract <;> simp

theorem mem_all_foldl_visit_iff :
    mapping ∈ (order.foldl (visit details) registry).all ↔ mapping ∈ registry.all ∨
      ∃ name ∈ order, ∃ detail, details.get? name = some detail ∧
        mapping ∈ detail.mappingNames := by
  induction order generalizing registry with
  | nil => simp
  | cons name rest ih =>
      rw [List.foldl_cons, ih, mem_all_visit_iff, List.exists_mem_cons_iff, or_assoc]

/-- A set once entered stays. -/
theorem get?_declaredUpTo_visit_of_some {name : String} {declared : NameSet}
    (entered : registry.declaredUpTo.get? name = some declared) :
    (registry.visit details contract).declaredUpTo.get? name = some declared := by
  rw [visit]
  split
  · exact entered
  next fresh =>
    rw [NameMap.get?_insert, if_neg, entered]
    rintro rfl
    exact fresh (by rw [NameMap.contains, entered]; rfl)

theorem get?_declaredUpTo_foldl_visit_of_some {name : String} {declared : NameSet}
    (entered : registry.declaredUpTo.get? name = some declared) :
    (order.foldl (visit details) registry).declaredUpTo.get? name = some declared := by
  induction order generalizing registry with
  | nil => exact entered
  | cons contract rest ih => exact ih (get?_declaredUpTo_visit_of_some entered)

/-- No set is entered for a contract that is not met. -/
theorem get?_declaredUpTo_foldl_visit_of_not_mem {name : String} (absent : name ∉ order) :
    (order.foldl (visit details) registry).declaredUpTo.get? name =
      registry.declaredUpTo.get? name := by
  induction order generalizing registry with
  | nil => rfl
  | cons contract rest ih =>
      rw [List.mem_cons, not_or] at absent
      rw [List.foldl_cons, ih absent.2, visit]
      split
      · rfl
      · rw [NameMap.get?_insert, if_neg absent.1]

/-- The set of a contract holds what has been met up to its first place. -/
theorem get?_declaredUpTo_ofContracts {before after : List String} (fresh : contract ∉ before) :
    (ofContracts (before ++ contract :: after) details scope).declaredUpTo.get? contract =
      some ((before ++ [contract]).foldl (visit details) (empty scope)).all := by
  rw [ofContracts, List.foldl_append, List.foldl_cons]
  apply get?_declaredUpTo_foldl_visit_of_some
  have absent : (before.foldl (visit details) (empty scope)).declaredUpTo.get? contract = none :=
    get?_declaredUpTo_foldl_visit_of_not_mem fresh
  have unknown : (before.foldl (visit details) (empty scope)).declaredUpTo.contains contract =
      false := by
    rw [NameMap.contains, absent]
    rfl
  rw [List.foldl_append, List.foldl_cons, List.foldl_nil, visit, unknown]
  exact (NameMap.get?_insert _ _ _ _).trans (if_pos rfl)

theorem mem_declaredUpTo_iff {before after : List String} (fresh : contract ∉ before) :
    mapping ∈ ((ofContracts (before ++ contract :: after) details scope).declaredUpTo.get?
        contract).getD NameSet.empty ↔
      ∃ name ∈ before ++ [contract], ∃ detail, details.get? name = some detail ∧
        mapping ∈ detail.mappingNames := by
  rw [get?_declaredUpTo_ofContracts fresh, Option.getD_some, mem_all_foldl_visit_iff]
  simp [empty]

/-- The registry reads nothing in the entries that it meets but the names of their
mappings. -/
theorem foldl_visit_congr {others : NameMap ContractDetail}
    (same : ∀ name ∈ order, (details.get? name).map ContractDetail.mappingNames =
      (others.get? name).map ContractDetail.mappingNames) (registry : MappingRegistry) :
    order.foldl (visit details) registry = order.foldl (visit others) registry := by
  apply List.foldl_ext
  intro registry name member
  simp only [visit, same name member]

theorem ofContracts_congr {others : NameMap ContractDetail}
    (same : ∀ name, (details.get? name).map ContractDetail.mappingNames =
      (others.get? name).map ContractDetail.mappingNames) :
    ofContracts order details scope = ofContracts order others scope :=
  foldl_visit_congr (fun name _ => same name) (empty scope)

theorem mem_perContract_iff {detail : ContractDetail} :
    mapping ∈ NameSet.ofList ((detail :: knownDetails details detail.parents).flatMap
        ContractDetail.mappingNames) ↔
      mapping ∈ detail.mappingNames ∨ ∃ name ∈ detail.parents, ∃ parent,
        details.get? name = some parent ∧ mapping ∈ parent.mappingNames := by
  simp only [NameSet.mem_ofList, List.flatMap_cons, List.mem_append, List.mem_flatMap,
    knownDetails, List.mem_filterMap]
  grind

theorem visibleTo_congr {others : NameMap ContractDetail} {detail : ContractDetail}
    (same : ∀ name, (details.get? name).map ContractDetail.mappingNames =
      (others.get? name).map ContractDetail.mappingNames) :
    registry.visibleTo detail details = registry.visibleTo detail others := by
  rw [visibleTo, visibleTo]
  split
  · rfl
  · apply NameSet.ext_mem
    intro mapping
    have sees : ∀ (details : NameMap ContractDetail) (parent : String),
        (∃ known, details.get? parent = some known ∧ mapping ∈ known.mappingNames) ↔
          ∃ mappings, (details.get? parent).map ContractDetail.mappingNames = some mappings ∧
            mapping ∈ mappings := by
      intro details parent
      simp only [Option.map_eq_some_iff, exists_exists_and_eq_and]
    rw [mem_perContract_iff, mem_perContract_iff]
    simp only [sees, same]

end MappingRegistry

namespace SourceUnit

/-- The mappings of a unit. -/
def mappings (unit : SourceUnit) (scope : MappingScope) : MappingRegistry :=
  MappingRegistry.ofContracts (unit.contracts.map (·.name)) unit.aggregation.details scope

/-- A contract with the given parents sees a mapping: one that the contract itself
declares or, by the scope, a contract written before it or one of its parents. -/
def SeesMapping (unit : SourceUnit) (contract : ContractDef) (parents : List String)
    (mapping : String) : MappingScope → Prop
  | .global => ∃ before after, unit.contracts = before ++ contract :: after ∧
      ∃ other ∈ before ++ [contract], unit.DeclaresMapping other.name mapping
  | .perContract => ∃ name ∈ contract.name :: parents, unit.DeclaresMapping name mapping

variable {unit : SourceUnit} {name mapping : String} {detail : ContractDetail}
  {contract : ContractDef} {scope : MappingScope}

theorem scope_mappings (unit : SourceUnit) (scope : MappingScope) :
    (unit.mappings scope).scope = scope :=
  MappingRegistry.scope_foldl_visit _ _

theorem exists_details_iff (distinct : (unit.contracts.map (·.name)).Nodup) :
    (∃ detail, unit.aggregation.details.get? name = some detail ∧
      mapping ∈ detail.mappingNames) ↔ unit.DeclaresMapping name mapping := by
  constructor
  · rintro ⟨detail, found, member⟩
    exact (mem_mappingNames_iff distinct found).mp member
  · intro declares
    rcases exists_details_of_declaresMapping declares with ⟨detail, found⟩
    exact ⟨detail, found, (mem_mappingNames_iff distinct found).mpr declares⟩

theorem mem_declaredUpTo_mappings_iff (distinct : (unit.contracts.map (·.name)).Nodup)
    {before after : List ContractDef} (split : unit.contracts = before ++ contract :: after) :
    mapping ∈ ((unit.mappings scope).declaredUpTo.get? contract.name).getD NameSet.empty ↔
      ∃ other ∈ before ++ [contract], unit.DeclaresMapping other.name mapping := by
  have order : unit.contracts.map (·.name) =
      before.map (·.name) ++ contract.name :: after.map (·.name) := by
    rw [split, List.map_append, List.map_cons]
  have fresh : contract.name ∉ before.map (·.name) := by
    intro member
    rw [order, List.nodup_append] at distinct
    exact distinct.2.2 _ member _ List.mem_cons_self rfl
  have names : before.map (·.name) ++ [contract.name] = (before ++ [contract]).map (·.name) := by
    rw [List.map_append, List.map_singleton]
  rw [mappings, order, MappingRegistry.mem_declaredUpTo_iff fresh, names]
  simp only [exists_details_iff distinct, List.mem_map, exists_exists_and_eq_and]

/-- The registry answers what the contract sees. -/
theorem mem_visibleTo_iff (distinct : (unit.contracts.map (·.name)).Nodup)
    (isContract : contract ∈ unit.contracts)
    (found : unit.aggregation.details.get? contract.name = some detail) :
    mapping ∈ (unit.mappings scope).visibleTo detail unit.aggregation.details ↔
      unit.SeesMapping contract detail.parents mapping scope := by
  rw [MappingRegistry.visibleTo, scope_mappings]
  cases scope with
  | global =>
      dsimp only
      rw [name_of_details found]
      constructor
      · intro visible
        rcases List.append_of_mem isContract with ⟨before, after, split⟩
        exact ⟨before, after, split, (mem_declaredUpTo_mappings_iff distinct split).mp visible⟩
      · rintro ⟨before, after, split, declared⟩
        exact (mem_declaredUpTo_mappings_iff distinct split).mpr declared
  | perContract =>
      dsimp only
      rw [MappingRegistry.mem_perContract_iff, mem_mappingNames_iff distinct found]
      simp only [exists_details_iff distinct, SeesMapping, List.exists_mem_cons_iff]

end SourceUnit

end SolidityModel
