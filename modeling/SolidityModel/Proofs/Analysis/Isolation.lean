import Mathlib.Data.Set.Insert
import SolidityModel.Proofs.Analysis.Survey
import SolidityModel.Proofs.Inheritance.Locality

/-!
# Failures stay with their contracts

All contracts of a unit share the tree, the table of orders, the entries of the
aggregation and the registry of mappings.  Still a contract learns through them
only of the base lists above it: whatever else changes in base lists, cycles and
inconsistent orders included, leaves its entry and its records of writes as they
are (`SourceUnit.analyze_isolates`).
-/

namespace SolidityModel

/-! ## Units that differ in base lists -/

/-- Two items are the same up to the bases of a contract with one of the given
names. -/
inductive UnitItem.SameUpToBases (names : Set String) : UnitItem → UnitItem → Prop where
  | same (item : UnitItem) : SameUpToBases names item item
  | rebased (contract : ContractDef) (bases : List String) (named : contract.name ∈ names) :
      SameUpToBases names (.contract contract) (.contract { contract with bases })

/-- Two units differ in nothing but the base lists of contracts with the given
names. -/
def SourceUnit.DiffersInBases (first : SourceUnit) (names : Set String) (second : SourceUnit) :
    Prop :=
  List.Forall₂ (UnitItem.SameUpToBases names) first.items second.items

section Items

variable {names : Set String} {items others : List UnitItem}

theorem contractNames_congr (differs : List.Forall₂ (UnitItem.SameUpToBases names) items others) :
    contractNames items = contractNames others := by
  induction differs with
  | nil => rfl
  | @cons item _ _ _ same _ ih =>
      cases same with
      | same =>
          cases item with
          | contract definition =>
              rw [contractNames_cons_contract, contractNames_cons_contract, ih]
          | structDef | enumDef | pragma | other => exact ih
      | rebased contract bases =>
          rw [contractNames_cons_contract, contractNames_cons_contract, ih]

/-- The contracts of any other name are the same. -/
theorem filter_contracts_congr {name : String} (other : name ∉ names)
    (differs : List.Forall₂ (UnitItem.SameUpToBases names) items others) :
    (items.filterMap UnitItem.contract?).filter (·.name = name) =
      (others.filterMap UnitItem.contract?).filter (·.name = name) := by
  induction differs with
  | nil => rfl
  | @cons item _ _ _ same _ ih =>
      cases same with
      | same =>
          cases item with
          | contract definition => simp [UnitItem.contract?, List.filter_cons, ih]
          | structDef | enumDef | pragma | other => exact ih
      | rebased contract bases named =>
          have different : contract.name ≠ name := fun equal => other (equal ▸ named)
          simp [UnitItem.contract?, different, ih]

/-- A pass reads no base list: what it learns of ancestors comes from the
linearization. -/
theorem Aggregation.foldl_visit_congr {linearization : Linearization}
    (differs : List.Forall₂ (UnitItem.SameUpToBases names) items others)
    (aggregation : Aggregation) :
    items.foldl (visit linearization) aggregation =
      others.foldl (visit linearization) aggregation := by
  induction differs generalizing aggregation with
  | nil => rfl
  | cons same _ ih =>
      rw [List.foldl_cons, List.foldl_cons, ih]
      cases same <;> rfl

end Items

/-! ## One pass with two linearizations -/

/-- Two linearizations have the same outcome for all names of a class that is
closed under ancestors. -/
structure Linearization.AgreesOn (clear : Set String) (linearization other : Linearization) :
    Prop where
  outcome : ∀ name ∈ clear, linearization.ancestorsOf name = other.ancestorsOf name
  closed : ∀ name ∈ clear, ∀ parent ∈ (linearization.ancestorsOf name).toOption.getD [],
    parent ∈ clear

namespace Aggregation

/-- Two aggregations know the same types, the same entries for a class of names,
and the same own mappings for all names. -/
structure AgreesOn (clear : Set String) (aggregation other : Aggregation) : Prop where
  registry : aggregation.registry = other.registry
  details : ∀ name ∈ clear, aggregation.details.get? name = other.details.get? name
  mappings : ∀ name, (aggregation.details.get? name).map ContractDetail.mappingNames =
    (other.details.get? name).map ContractDetail.mappingNames

variable {clear : Set String} {linearization otherLinearization : Linearization}
  {aggregation other : Aggregation}

theorem AgreesOn.visitContract
    (linearizations : linearization.AgreesOn clear otherLinearization)
    (agrees : aggregation.AgreesOn clear other) (contract : ContractDef) :
    (aggregation.visitContract linearization contract).AgreesOn clear
      (other.visitContract otherLinearization contract) := by
  refine ⟨?registry, ?details, ?mappings⟩
  case registry => simp only [Aggregation.visitContract, agrees.registry]
  case details =>
    intro name isClear
    simp only [Aggregation.visitContract, NameMap.get?_insert, agrees.registry]
    by_cases equal : name = contract.name
    · subst equal
      rw [if_pos rfl, if_pos rfl, ← linearizations.outcome contract.name isClear]
      congr 1
      apply ContractDetail.ofContract_congr
      intro parent isParent
      exact agrees.details parent (linearizations.closed contract.name isClear parent isParent)
    · rw [if_neg equal, if_neg equal, agrees.details name isClear]
  case mappings =>
    intro name
    simp only [Aggregation.visitContract, NameMap.get?_insert, agrees.registry]
    split
    · rfl
    · exact agrees.mappings name

theorem AgreesOn.visit (linearizations : linearization.AgreesOn clear otherLinearization)
    (agrees : aggregation.AgreesOn clear other) (item : UnitItem) :
    (aggregation.visit linearization item).AgreesOn clear
      (other.visit otherLinearization item) := by
  cases item with
  | contract definition => exact agrees.visitContract linearizations definition
  | structDef definition =>
      exact ⟨congrArg (·.registerStruct definition) agrees.registry, agrees.details,
        agrees.mappings⟩
  | enumDef definition =>
      exact ⟨congrArg (·.registerEnum definition) agrees.registry, agrees.details,
        agrees.mappings⟩
  | pragma | other => exact agrees

theorem AgreesOn.foldl_visit (linearizations : linearization.AgreesOn clear otherLinearization)
    (agrees : aggregation.AgreesOn clear other) (items : List UnitItem) :
    (items.foldl (Aggregation.visit linearization) aggregation).AgreesOn clear
      (items.foldl (Aggregation.visit otherLinearization) other) := by
  induction items generalizing aggregation other with
  | nil => exact agrees
  | cons item rest ih => exact ih (agrees.visit linearizations item)

/-- What a pass gathers for a class of contracts closed under ancestors depends on
the linearization of this class. -/
theorem ofUnit_agreesOn (linearizations : linearization.AgreesOn clear otherLinearization)
    (unit : SourceUnit) :
    (ofUnit unit linearization).AgreesOn clear (ofUnit unit otherLinearization) := by
  have start : empty.AgreesOn clear empty := ⟨rfl, fun _ _ => rfl, fun _ => rfl⟩
  exact start.foldl_visit linearizations unit.items

end Aggregation

/-! ## Two analyses -/

namespace SourceUnit

variable {first second : SourceUnit} {names : Set String} {config : Config}

/-- The names from which no step to a base leads to one of the given names. -/
def clearOf (unit : SourceUnit) (names : Set String) : Set String :=
  {contract | ∀ name, unit.inheritance.Reaches contract name → name ∉ names}

theorem mem_clearOf {unit : SourceUnit} {contract : String} (outside : contract ∉ names)
    (noneAbove : ∀ name ∈ names, ¬unit.inheritance.Inherits contract name) :
    contract ∈ unit.clearOf names := by
  intro name reaches named
  rcases InheritanceTree.reaches_iff_eq_or_inherits.mp reaches with rfl | inherits
  · exact outside named
  · exact noneAbove name named inherits

theorem DiffersInBases.contractNames_eq (differs : first.DiffersInBases names second) :
    first.contracts.map (·.name) = second.contracts.map (·.name) :=
  contractNames_congr differs

theorem DiffersInBases.basesOf_eq (differs : first.DiffersInBases names second) {name : String}
    (other : name ∉ names) : first.inheritance.basesOf name = second.inheritance.basesOf name :=
  InheritanceTree.basesOf_ofContracts_congr (filter_contracts_congr other differs)

theorem DiffersInBases.agreesAbove (differs : first.DiffersInBases names second)
    {contract : String} (isClear : contract ∈ first.clearOf names) :
    first.inheritance.AgreesAbove second.inheritance contract :=
  fun name reaches => differs.basesOf_eq (isClear name reaches)

/-- Contracts with nothing of what differs above them have the same outcome, and
so have their ancestors. -/
theorem DiffersInBases.linearizations_agree (differs : first.DiffersInBases names second) :
    first.inheritance.linearize.AgreesOn (first.clearOf names) second.inheritance.linearize := by
  constructor
  · intro contract isClear
    rw [InheritanceTree.ancestorsOf_linearize, InheritanceTree.ancestorsOf_linearize,
      InheritanceTree.ancestorsOf_congr (differs.agreesAbove isClear)]
  · intro contract isClear parent isParent name reaches
    rw [InheritanceTree.ancestorsOf_linearize] at isParent
    rcases mem_getD_toOption_iff.mp isParent with ⟨parents, linearized, member⟩
    have derived := InheritanceTree.ancestorsOf_eq_ok_iff.mp linearized
    have inherits := (derived.mem_ancestors_iff parent).mp member
    exact isClear name (inherits.to_reflTransGen.trans reaches)

theorem DiffersInBases.aggregations_agree (differs : first.DiffersInBases names second) :
    first.aggregation.AgreesOn (first.clearOf names) second.aggregation := by
  have sameItems : second.aggregation = Aggregation.ofUnit first second.inheritance.linearize :=
    (Aggregation.foldl_visit_congr differs _).symm
  rw [sameItems]
  exact Aggregation.ofUnit_agreesOn differs.linearizations_agree first

/-- The registry of mappings is the same for all contracts. -/
theorem DiffersInBases.mappings_eq (differs : first.DiffersInBases names second)
    (scope : MappingScope) : first.mappings scope = second.mappings scope := by
  rw [mappings, mappings, differs.contractNames_eq]
  exact MappingRegistry.ofContracts_congr differs.aggregations_agree.mappings

/-- A contract sees the same mappings. -/
theorem DiffersInBases.visible_eq (differs : first.DiffersInBases names second)
    (config : Config) (detail : ContractDetail) :
    first.visible config detail = second.visible config detail := by
  rw [visible, visible, differs.mappings_eq]
  exact MappingRegistry.visibleTo_congr differs.aggregations_agree.mappings

/-- The entry of a contract and its records of writes. -/
theorem DiffersInBases.analyses_agree (differs : first.DiffersInBases names second)
    (config : Config) {contract : String} (isClear : contract ∈ first.clearOf names) :
    (first.analyze config).contracts.get? contract =
        (second.analyze config).contracts.get? contract ∧
      (first.analyze config).mappingWrites.filter (·.contract = contract) =
        (second.analyze config).mappingWrites.filter (·.contract = contract) := by
  have details := differs.aggregations_agree.details contract isClear
  have visible : first.visible config = second.visible config :=
    funext fun detail => differs.visible_eq config detail
  simp only [get?_contracts_analyze, filter_mappingWrites_analyze, details, visible, and_self]

/-- Every contract has an entry that lists its ancestors or the failure of their
linearization. -/
theorem exists_settled_analyze (unit : SourceUnit) (config : Config) {contract : ContractDef}
    (isContract : contract ∈ unit.contracts) :
    ∃ detail before last, (unit.analyze config).contracts.get? contract.name = some detail ∧
      unit.Defines contract.name before last ∧
      detail.Settled (ownMembers before last)
        ((unit.analyze config).linearization.ancestorsOf contract.name) := by
  rcases exists_defines (List.mem_map_of_mem isContract) with ⟨before, last, defines⟩
  rcases get?_details_of_defines defines with ⟨known, found⟩
  exact ⟨_, before, last, get?_contracts_of_details found, defines,
    ContractDetail.settled_markWriters.mpr ContractDetail.settled_ofContract⟩

/-- A failure is told by the entry of its own contract, and what fails changes no
entries and no records but those of the contracts that inherit from it. -/
theorem analyze_isolates :
    (∀ (first second : SourceUnit) (names : Set String) (config : Config),
      first.DiffersInBases names second → ∀ contract ∈ first.contracts, contract.name ∉ names →
      (∀ name ∈ names, ¬first.inheritance.Inherits contract.name name) →
        (∃ detail, (first.analyze config).contracts.get? contract.name = some detail ∧
          (second.analyze config).contracts.get? contract.name = some detail) ∧
        (first.analyze config).mappingWrites.filter (·.contract = contract.name) =
          (second.analyze config).mappingWrites.filter (·.contract = contract.name)) ∧
    ∀ (unit : SourceUnit) (config : Config), ∀ contract ∈ unit.contracts,
      ∃ detail before last, (unit.analyze config).contracts.get? contract.name = some detail ∧
        unit.Defines contract.name before last ∧
        detail.Settled (ownMembers before last)
          ((unit.analyze config).linearization.ancestorsOf contract.name) := by
  constructor
  · intro first second names config differs contract isContract outside noneAbove
    have isClear := mem_clearOf outside noneAbove
    rcases differs.analyses_agree config isClear with ⟨entries, records⟩
    rcases exists_settled_analyze first config isContract with ⟨detail, -, -, found, -⟩
    exact ⟨⟨detail, found, entries ▸ found⟩, records⟩
  · intro unit config contract isContract
    exact exists_settled_analyze unit config isContract

/-- The token unit behind a contract without members. -/
def spareUnit (bases : List String) : SourceUnit where
  items := .contract ⟨"Spare", .contract, bases, []⟩ :: tokenUnit.items

/-- A contract that becomes its own base fails alone. -/
theorem spareUnit_isolates :
    (spareUnit []).DiffersInBases {"Spare"} (spareUnit ["Spare"]) ∧
    (((spareUnit ["Spare"]).analyze ⟨.global, false, none⟩).contracts.get? "Spare").map (·.errors) =
      some [.cyclic "Spare" ["Spare", "Spare"]] ∧
    ∃ token ∈ (spareUnit []).contracts, token.name = "Token" ∧
      token.name ∉ ({"Spare"} : Set String) ∧
      (∀ name ∈ ({"Spare"} : Set String),
        ¬(spareUnit []).inheritance.Inherits token.name name) ∧
      (∃ detail,
        ((spareUnit []).analyze ⟨.global, false, none⟩).contracts.get? token.name = some detail ∧
        ((spareUnit ["Spare"]).analyze ⟨.global, false, none⟩).contracts.get? token.name =
          some detail) ∧
      ((spareUnit []).analyze ⟨.global, false, none⟩).mappingWrites.filter
          (·.contract = token.name) =
        ((spareUnit ["Spare"]).analyze ⟨.global, false, none⟩).mappingWrites.filter
          (·.contract = token.name) := by
  have differs : (spareUnit []).DiffersInBases {"Spare"} (spareUnit ["Spare"]) :=
    .cons (.rebased ⟨"Spare", .contract, [], []⟩ ["Spare"] rfl)
      (List.forall₂_same.mpr fun item _ => .same item)
  have isContract : (spareUnit []).contracts[2] ∈ (spareUnit []).contracts := List.getElem_mem _
  have outside : (spareUnit []).contracts[2].name ∉ ({"Spare"} : Set String) := by
    rw [Set.mem_singleton_iff]
    decide +kernel
  have linearized : (spareUnit []).inheritance.ancestorsOf (spareUnit []).contracts[2].name =
      .ok ["Vault"] := by decide +kernel
  have noneAbove : ∀ name ∈ ({"Spare"} : Set String),
      ¬(spareUnit []).inheritance.Inherits (spareUnit []).contracts[2].name name := by
    intro name isSpare inherits
    have derived := InheritanceTree.ancestorsOf_eq_ok_iff.mp linearized
    have isAncestor : name ∈ ["Vault"] := (derived.mem_ancestors_iff name).mpr inherits
    rw [Set.mem_singleton_iff.mp isSpare] at isAncestor
    exact absurd isAncestor (by decide)
  exact ⟨differs, by decide +kernel, _, isContract, by decide +kernel, outside, noneAbove,
    analyze_isolates.1 _ _ _ ⟨.global, false, none⟩ differs _ isContract outside noneAbove⟩

end SourceUnit

end SolidityModel
