import SolidityModel.Proofs.Analysis.Survey

/-!
# Analyses under the two scopes

Where ancestors come first, what is visible to a contract through its ancestors is
also visible through the order of the unit.  The analysis under the narrower scope
therefore finds a part of the writes that the other one finds: those to mappings
which the writing contract or one of its parents declares
(`SourceUnit.analyze_narrows`).  Nothing but writes depends on the scope.
-/

namespace SolidityModel

/-! ## Searches for fewer mappings -/

section Searches

variable {narrow wide : NameSet} (subset : ∀ mapping ∈ narrow, mapping ∈ wide)

include subset

/-- A search for fewer mappings tells of the same writes as far as it sees their
mappings. -/
theorem Callable.tells_iff_of_subset (definition : Callable) (contract : String) {target : Expr}
    {record : MappingWrite} :
    (definition.search contract narrow).Tells target record ↔
      (definition.search contract wide).Tells target record ∧ record.mapping ∈ narrow := by
  constructor
  · intro tells
    exact ⟨⟨tells.contract_eq, tells.function_eq, subset _ tells.mem_mappings,
      tells.exists_keys⟩, tells.mem_mappings⟩
  · intro both
    rcases both with ⟨tells, visible⟩
    exact ⟨tells.contract_eq, tells.function_eq, visible, tells.exists_keys⟩

theorem Callable.records_writes_of_subset (definition : Callable) (contract : String) :
    (definition.writes contract narrow).records =
      (definition.writes contract wide).records.filter (·.mapping ∈ narrow) := by
  simp only [writes_eq_inTargets, WriteSearch.inTargets, List.filter_filterMap]
  apply List.filterMap_congr
  intro target _
  apply Option.ext
  intro record
  rw [Option.filter_eq_some_iff, decide_eq_true_eq, WriteSearch.recordIn?_eq_some_iff,
    WriteSearch.recordIn?_eq_some_iff]
  exact definition.tells_iff_of_subset subset contract

theorem Callable.writesMapping_of_subset {definition : Callable} {contract : String}
    (flagged : (definition.writes contract narrow).writesMapping = true) :
    (definition.writes contract wide).writesMapping = true := by
  rcases writesMapping_writes_iff.mp flagged with ⟨target, isTarget, mapping, visible, spelled⟩
  exact writesMapping_writes_iff.mpr
    ⟨target, isTarget, mapping, subset mapping visible, spelled⟩

namespace ContractDetail

theorem writeRecords_of_subset (detail : ContractDetail) :
    detail.writeRecords narrow = (detail.writeRecords wide).filter (·.mapping ∈ narrow) := by
  rw [writeRecords_eq, writeRecords_eq, List.filter_flatMap]
  apply List.flatMap_congr
  intro record _
  exact record.definition.records_writes_of_subset subset detail.name

/-- A function or modifier that is flagged for fewer mappings is also flagged for
more. -/
theorem forall₂_markWriters_of_subset (detail : ContractDetail) :
    List.Forall₂ (fun record other => record.definition = other.definition ∧
        (record.writesMapping = true → other.writesMapping = true))
      (detail.markWriters narrow).functions (detail.markWriters wide).functions := by
  simp only [markWriters, List.forall₂_map_left_iff, List.forall₂_map_right_iff,
    List.forall₂_same, Bool.or_eq_true, true_and]
  intro record _ flagged
  exact flagged.imp_right (Callable.writesMapping_of_subset subset)

end ContractDetail

end Searches

/-! ## The two analyses -/

namespace UnitAnalysis

/-- What an analysis says apart from the writes to mappings. -/
def withoutWrites (analysis : UnitAnalysis) : UnitAnalysis :=
  { analysis with
    contracts := analysis.contracts.map ContractDetail.unmarked
    mappings := .empty .global
    mappingWrites := [] }

/-- Of two analyses of a unit the first one finds less: only the writes to mappings
that the writing contract or one of its parents declares. -/
structure Narrows (unit : SourceUnit) (narrow wide : UnitAnalysis) : Prop where
  exists_near : ∃ near : MappingWrite → Bool,
    (∀ write, near write = true ↔ ∃ detail, wide.contracts.get? write.contract = some detail ∧
      ∃ name ∈ write.contract :: detail.parents, unit.DeclaresMapping name write.mapping) ∧
    narrow.mappingWrites = wide.mappingWrites.filter near
  flags : ∀ name detail other, narrow.contracts.get? name = some detail →
    wide.contracts.get? name = some other →
    List.Forall₂ (fun record other => record.definition = other.definition ∧
      (record.writesMapping = true → other.writesMapping = true)) detail.functions other.functions
  withoutWrites : narrow.withoutWrites = wide.withoutWrites

end UnitAnalysis

namespace SourceUnit

variable {unit : SourceUnit} {name mapping : String} {contract : ContractDef}
  {detail : ContractDetail}

/-- What is visible through ancestors is visible through the order of the unit. -/
theorem seesMapping_global_of_perContract (ordered : unit.AncestorsFirst)
    (isContract : contract ∈ unit.contracts)
    (found : unit.aggregation.details.get? contract.name = some detail)
    (sees : unit.SeesMapping contract detail.parents mapping .perContract) :
    unit.SeesMapping contract detail.parents mapping .global := by
  rcases List.append_of_mem isContract with ⟨before, after, split⟩
  rcases sees with ⟨name, member, declares⟩
  rcases List.mem_cons.mp member with rfl | isParent
  · exact ⟨before, after, split, contract, List.mem_append_right _ (List.mem_singleton_self _),
      declares⟩
  · have isDefined : name ∈ unit.contracts.map (·.name) := by
      rcases declares with ⟨_, ⟨declaring, isDeclaring, rfl, _⟩, _⟩
      exact List.mem_map_of_mem isDeclaring
    have linearized := linearized_of_mem_parents found isParent
    have inFront := ordered before contract after split detail.parents linearized name isParent
      isDefined
    rcases List.mem_map.mp inFront with ⟨other, otherMember, rfl⟩
    exact ⟨before, after, split, other, List.mem_append_left _ otherMember, declares⟩

/-- A contract sees less under the narrower scope. -/
theorem visible_subset (distinct : (unit.contracts.map (·.name)).Nodup)
    (ordered : unit.AncestorsFirst) (config : Config)
    (found : unit.aggregation.details.get? name = some detail) :
    ∀ mapping ∈ unit.visible { config with scope := .perContract } detail,
      mapping ∈ unit.visible { config with scope := .global } detail := by
  intro mapping visible
  rcases exists_contract_of_details found with ⟨contract, isContract, rfl⟩
  rw [mem_visible_iff distinct isContract found] at visible ⊢
  exact seesMapping_global_of_perContract ordered isContract found visible

/-- The writes under the narrower scope are a part of the others. -/
theorem mappingWrites_perContract (distinct : (unit.contracts.map (·.name)).Nodup)
    (ordered : unit.AncestorsFirst) (config : Config) :
    (unit.analyze { config with scope := .perContract }).mappingWrites =
      (unit.analyze { config with scope := .global }).mappingWrites.filter fun write =>
        (unit.aggregation.details.get? write.contract).any fun detail =>
          write.mapping ∈ unit.visible { config with scope := .perContract } detail := by
  rw [mappingWrites_analyze, mappingWrites_analyze, List.filter_flatMap]
  apply List.flatMap_congr
  intro detail isValue
  rcases NameMap.exists_get?_of_mem_values isValue with ⟨name, found⟩
  rw [detail.writeRecords_of_subset (visible_subset distinct ordered config found)]
  apply List.filter_congr
  intro write member
  rw [contract_of_writeRecords name detail found write member, found, Option.any_some]

/-- Where names are different and ancestors come first, the scope decides about
nothing but writes to mappings, and the narrower scope finds those to mappings that
the writing contract or one of its parents declares. -/
theorem analyze_narrows (distinct : (unit.contracts.map (·.name)).Nodup)
    (ordered : unit.AncestorsFirst) (config : Config) :
    UnitAnalysis.Narrows unit (unit.analyze { config with scope := .perContract })
      (unit.analyze { config with scope := .global }) := by
  refine ⟨⟨_, ?near, mappingWrites_perContract distinct ordered config⟩, ?flags, ?rest⟩
  case near =>
    intro write
    simp only [Option.any_eq_true, decide_eq_true_eq, get?_contracts_analyze,
      Option.map_eq_some_iff, exists_exists_and_eq_and]
    apply exists_congr
    intro detail
    apply and_congr_right
    intro found
    rcases exists_contract_of_details found with ⟨contract, isContract, nameEq⟩
    rw [← nameEq] at found ⊢
    exact mem_visible_iff distinct isContract found write.mapping
  case flags =>
    intro name detail other narrowFound wideFound
    rw [get?_contracts_analyze, Option.map_eq_some_iff] at narrowFound wideFound
    rcases narrowFound with ⟨entry, found, rfl⟩
    rcases wideFound with ⟨sameEntry, sameFound, rfl⟩
    rw [Option.some.inj (sameFound.symm.trans found)]
    exact entry.forall₂_markWriters_of_subset (visible_subset distinct ordered config found)
  case rest =>
    simp only [UnitAnalysis.withoutWrites, unmarked_contracts_analyze]
    rfl

/-- The token unit with a stranger behind it, who assigns to the balances without
inheriting them. -/
def strangerUnit : SourceUnit where
  items := tokenUnit.items ++
    [.contract ⟨"Stranger", .contract, [],
      [.callable ⟨"steal", .function, none, some [.expression (.assignment "="
        (.indexAccess (.identifier "balances") (some (.identifier "victim"))))], .null⟩]⟩]

theorem strangerUnit_narrows :
    (strangerUnit.contracts.map (·.name)).Nodup ∧ strangerUnit.AncestorsFirst ∧
    (strangerUnit.analyze ⟨.perContract, false, none⟩).mappingWrites =
      [⟨"Token", "move", "balances", ["move", "msg.sender"]⟩] ∧
    (strangerUnit.analyze ⟨.global, false, none⟩).mappingWrites =
      [⟨"Stranger", "steal", "balances", ["steal", "victim"]⟩,
        ⟨"Token", "move", "balances", ["move", "msg.sender"]⟩] ∧
    UnitAnalysis.Narrows strangerUnit (strangerUnit.analyze ⟨.perContract, false, none⟩)
      (strangerUnit.analyze ⟨.global, false, none⟩) := by
  have distinct : (strangerUnit.contracts.map (·.name)).Nodup := by decide +kernel
  have ordered : strangerUnit.AncestorsFirst := ancestorsFirst_of_pairwise (by decide +kernel)
  exact ⟨distinct, ordered, by decide +kernel, by decide +kernel,
    analyze_narrows distinct ordered ⟨.global, false, none⟩⟩

end SourceUnit

end SolidityModel
