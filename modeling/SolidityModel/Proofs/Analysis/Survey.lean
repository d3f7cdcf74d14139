import SolidityModel.Analysis
import SolidityModel.Proofs.Mapping.Targets
import SolidityModel.Proofs.Mapping.Visibility

/-!
# The survey of writes

An analysis looks for writes to mappings in the entries of the aggregation and
enters what it finds twice: as a flag at each function or modifier and as a list
of records over all contracts.  Both tell the same (`SourceUnit.analyze_surveys`):
the records of a contract are those of its flagged functions in their order, a flag
rests on one body alone, and nothing else in the entries is touched.
-/

namespace SolidityModel

/-! ## One contract -/

namespace ContractDetail

variable {detail : ContractDetail} {mappings : NameSet}

/-- The records of the functions and modifiers of a contract in their order. -/
def writeRecords (detail : ContractDetail) (mappings : NameSet) : List MappingWrite :=
  (detail.writes mappings).flatMap (·.records)

theorem writeRecords_eq (detail : ContractDetail) (mappings : NameSet) :
    detail.writeRecords mappings =
      detail.functions.flatMap fun record =>
        (record.definition.writes detail.name mappings).records := by
  rw [writeRecords, writes, List.flatMap_map]

theorem contract_of_mem_writeRecords {write : MappingWrite}
    (member : write ∈ detail.writeRecords mappings) : write.contract = detail.name := by
  rw [writeRecords_eq] at member
  rcases List.mem_flatMap.mp member with ⟨record, -, found⟩
  rcases Callable.mem_records_writes_iff.mp found with ⟨target, -, tells⟩
  exact tells.contract_eq

/-- The entry without any flag. -/
def unmarked (detail : ContractDetail) : ContractDetail :=
  { detail with functions := detail.functions.map fun record =>
      { record with writesMapping := false } }

theorem unmarked_markWriters
    (fresh : ∀ record ∈ detail.functions, record.writesMapping = false) :
    (detail.markWriters mappings).unmarked = detail := by
  have functions : (detail.markWriters mappings).unmarked.functions = detail.functions := by
    simp only [unmarked, markWriters, List.map_map]
    refine (List.map_congr_left fun record member => ?_).trans (List.map_id _)
    exact congrArg (FunctionRecord.mk record.definition) (fresh record member).symm
  exact congrArg (fun functions => { detail with functions }) functions

/-- Where nothing is flagged before, a flag is what is found in the body. -/
theorem writesMapping_of_mem_markWriters
    (fresh : ∀ record ∈ detail.functions, record.writesMapping = false)
    {record : FunctionRecord} (member : record ∈ (detail.markWriters mappings).functions) :
    record.writesMapping = (record.definition.writes detail.name mappings).writesMapping := by
  rcases List.mem_map.mp member with ⟨unflagged, unflaggedMember, rfl⟩
  simp [fresh unflagged unflaggedMember]

theorem definitions_markWriters (detail : ContractDetail) (mappings : NameSet) :
    (detail.markWriters mappings).functions.map (·.definition) =
      detail.functions.map (·.definition) := by
  simp [markWriters, Function.comp_def]

/-- Flags change nothing of what an entry says about its ancestors. -/
theorem settled_markWriters {own : OwnMembers} {ancestors : Except InheritanceError (List String)} :
    (detail.markWriters mappings).Settled own ancestors ↔ detail.Settled own ancestors := by
  cases ancestors <;> rfl

end ContractDetail

/-! ## The whole unit -/

namespace SourceUnit

variable {unit : SourceUnit} {config : Config} {name : String} {detail : ContractDetail}
  {contract : ContractDef}

/-- The mappings that the contract of an entry sees. -/
def visible (unit : SourceUnit) (config : Config) (detail : ContractDetail) : NameSet :=
  (unit.mappings config.scope).visibleTo detail unit.aggregation.details

theorem visible_global (unit : SourceUnit) (isGlobal : config.scope = .global)
    (detail : ContractDetail) :
    unit.visible config detail =
      ((unit.mappings .global).declaredUpTo.get? detail.name).getD NameSet.empty := by
  rw [visible, MappingRegistry.visibleTo, scope_mappings, isGlobal]

theorem visible_perContract (unit : SourceUnit) (isPerContract : config.scope = .perContract)
    (detail : ContractDetail) :
    unit.visible config detail =
      NameSet.ofList ((detail :: knownDetails unit.aggregation.details detail.parents).flatMap
        ContractDetail.mappingNames) := by
  rw [visible, MappingRegistry.visibleTo, scope_mappings, isPerContract]

theorem get?_contracts_analyze (unit : SourceUnit) (config : Config) (name : String) :
    (unit.analyze config).contracts.get? name =
      (unit.aggregation.details.get? name).map fun detail =>
        detail.markWriters (unit.visible config detail) :=
  NameMap.get?_map _ _ _

theorem get?_contracts_of_details (found : unit.aggregation.details.get? name = some detail) :
    (unit.analyze config).contracts.get? name =
      some (detail.markWriters (unit.visible config detail)) := by
  rw [get?_contracts_analyze, found, Option.map_some]

theorem mappingWrites_analyze (unit : SourceUnit) (config : Config) :
    (unit.analyze config).mappingWrites =
      unit.aggregation.details.values.flatMap fun detail =>
        detail.writeRecords (unit.visible config detail) := rfl

theorem contract_of_writeRecords :
    ∀ name detail, unit.aggregation.details.get? name = some detail →
      ∀ write ∈ detail.writeRecords (unit.visible config detail), write.contract = name := by
  intro name detail found write member
  rw [ContractDetail.contract_of_mem_writeRecords member, name_of_details found]

/-- The writes of one contract among those of all. -/
theorem filter_mappingWrites_analyze (unit : SourceUnit) (config : Config) (name : String) :
    (unit.analyze config).mappingWrites.filter (·.contract = name) =
      ((unit.aggregation.details.get? name).map fun detail =>
        detail.writeRecords (unit.visible config detail)).getD [] := by
  rw [mappingWrites_analyze]
  exact NameMap.filter_flatMap_values contract_of_writeRecords name

/-- What an analysis says of the writes of one contract. -/
structure SurveysContract (unit : SourceUnit) (config : Config) (contract : ContractDef)
    (detail : ContractDetail) : Prop where
  /-- The functions and modifiers stand in the order of their declarations. -/
  definitions : detail.functions.map (·.definition) = contract.callables
  /-- Each of them is flagged for an assignment in its own body to an element of a
  mapping that the contract sees, and for nothing else. -/
  flag_iff : ∀ record ∈ detail.functions, record.writesMapping = true ↔
    ∃ target ∈ record.definition.targets, ∃ mapping indices,
      unit.SeesMapping contract detail.parents mapping config.scope ∧ indices ≠ [] ∧
      target = (Expr.identifier mapping).indexed indices
  /-- The records of the contract are those of its functions and modifiers in
  their order. -/
  exists_visible : ∃ visible : NameSet,
    (∀ mapping, mapping ∈ visible ↔
      unit.SeesMapping contract detail.parents mapping config.scope) ∧
    (unit.analyze config).mappingWrites.filter (·.contract = contract.name) =
      detail.functions.flatMap fun record =>
        (record.definition.writes contract.name visible).records

/-- A record tells of a flagged function of its contract, has at least one key and
names a mapping that the contract sees. -/
structure BacksRecord (unit : SourceUnit) (config : Config) (contract : ContractDef)
    (detail : ContractDetail) (write : MappingWrite) : Prop where
  contract_eq : write.contract = contract.name
  exists_flagged : ∃ record ∈ detail.functions, record.name = write.function ∧
    record.writesMapping = true
  exists_keys : ∃ key keys, write.keyPath = write.function :: key :: keys
  sees : unit.SeesMapping contract detail.parents write.mapping config.scope

/-- The flags and the records of an analysis tell the same. -/
structure Surveys (unit : SourceUnit) (config : Config) : Prop where
  /-- Apart from the flags, the entries are those of the aggregation. -/
  unmarked : (unit.analyze config).contracts.map ContractDetail.unmarked = unit.aggregation.details
  ascending : (unit.analyze config).mappingWrites.Pairwise fun earlier later =>
    earlier.contract ≤ later.contract
  contracts : ∀ contract ∈ unit.contracts, ∃ detail,
    (unit.analyze config).contracts.get? contract.name = some detail ∧
    unit.SurveysContract config contract detail
  records : ∀ write ∈ (unit.analyze config).mappingWrites, ∃ contract ∈ unit.contracts, ∃ detail,
    (unit.analyze config).contracts.get? contract.name = some detail ∧
    unit.BacksRecord config contract detail write
  /-- The writers listed are the flagged functions and modifiers of the contracts
  that have any. -/
  writers : ∀ name writers, (unit.analyze config).mappingWriters.get? name = some writers ↔
    ∃ detail, (unit.analyze config).contracts.get? name = some detail ∧
      (∃ record ∈ detail.functions, record.writesMapping = true) ∧
      ∀ function, function ∈ writers ↔
        ∃ record ∈ detail.functions, record.writesMapping = true ∧ record.name = function

theorem unmarked_contracts_analyze (unit : SourceUnit) (config : Config) :
    (unit.analyze config).contracts.map ContractDetail.unmarked = unit.aggregation.details := by
  apply NameMap.ext_get?
  intro name
  rw [NameMap.get?_map, get?_contracts_analyze, Option.map_map]
  cases found : unit.aggregation.details.get? name with
  | none => rfl
  | some detail =>
      exact congrArg some (ContractDetail.unmarked_markWriters (not_marked_of_details found))

theorem mem_visible_iff (distinct : (unit.contracts.map (·.name)).Nodup)
    (isContract : contract ∈ unit.contracts)
    (found : unit.aggregation.details.get? contract.name = some detail) (mapping : String) :
    mapping ∈ unit.visible config detail ↔
      unit.SeesMapping contract detail.parents mapping config.scope :=
  mem_visibleTo_iff distinct isContract found

theorem surveysContract_markWriters (distinct : (unit.contracts.map (·.name)).Nodup)
    (isContract : contract ∈ unit.contracts)
    (found : unit.aggregation.details.get? contract.name = some detail) :
    unit.SurveysContract config contract (detail.markWriters (unit.visible config detail)) := by
  have nameEq : detail.name = contract.name := name_of_details found
  have sees : ∀ mapping, mapping ∈ unit.visible config detail ↔
      unit.SeesMapping contract detail.parents mapping config.scope :=
    fun mapping => mem_visible_iff distinct isContract found mapping
  refine ⟨?definitions, ?flags, unit.visible config detail, sees, ?records⟩
  case definitions =>
    rcases exists_place_of_mem isContract with ⟨before, after, place⟩
    rw [ContractDetail.definitions_markWriters]
    exact definitions_of_defines (defines_of_place distinct place) found
  case flags =>
    intro record member
    rw [ContractDetail.writesMapping_of_mem_markWriters (not_marked_of_details found) member,
      Callable.writesMapping_writes_iff]
    simp only [WriteSearch.WritesTo, Callable.search, sees, exists_and_left]
    rfl
  case records =>
    rw [filter_mappingWrites_analyze, found, Option.map_some, Option.getD_some,
      ContractDetail.writeRecords_eq, nameEq, ContractDetail.markWriters, List.flatMap_map]

theorem backsRecord_of_mem (distinct : (unit.contracts.map (·.name)).Nodup)
    (isContract : contract ∈ unit.contracts)
    (found : unit.aggregation.details.get? contract.name = some detail) {write : MappingWrite}
    (member : write ∈ detail.writeRecords (unit.visible config detail)) :
    unit.BacksRecord config contract (detail.markWriters (unit.visible config detail)) write := by
  have nameEq : detail.name = contract.name := name_of_details found
  have writeOf := member
  rw [ContractDetail.writeRecords_eq] at writeOf
  rcases List.mem_flatMap.mp writeOf with ⟨record, recordMember, isRecord⟩
  rcases Callable.mem_records_writes_iff.mp isRecord with ⟨target, isTarget, tells⟩
  rcases tells.exists_keys with ⟨indices, keys, nonempty, spelled, told, keyPath⟩
  have flagged : (record.definition.writes detail.name
      (unit.visible config detail)).writesMapping = true :=
    Callable.writesMapping_writes_iff.mpr
      ⟨target, isTarget, write.mapping, tells.mem_mappings, indices, nonempty, spelled⟩
  refine ⟨tells.contract_eq.trans nameEq, ?flagged, ?keys, ?sees⟩
  case flagged =>
    refine ⟨_, List.mem_map_of_mem recordMember, tells.function_eq.symm, ?_⟩
    rw [flagged, Bool.or_true]
  case keys =>
    cases told with
    | nil => exact absurd rfl nonempty
    | cons _ _ => exact ⟨_, _, keyPath.trans (congrArg (· :: _) tells.function_eq.symm)⟩
  case sees => exact (mem_visible_iff distinct isContract found _).mp tells.mem_mappings

/-- The writers listed for a contract are its flagged functions and modifiers. -/
theorem get?_mappingWriters_iff (analysis : UnitAnalysis) (name : String) (writers : NameSet) :
    analysis.mappingWriters.get? name = some writers ↔
      ∃ detail, analysis.contracts.get? name = some detail ∧
        (∃ record ∈ detail.functions, record.writesMapping = true) ∧
        ∀ function, function ∈ writers ↔
          ∃ record ∈ detail.functions, record.writesMapping = true ∧ record.name = function := by
  have isWriter : ∀ (detail : ContractDetail) (function : String),
      function ∈ detail.mappingWriters ↔
        ∃ record ∈ detail.functions, record.writesMapping = true ∧ record.name = function := by
    intro detail function
    simp [ContractDetail.mappingWriters, and_assoc]
  have listed : ∀ detail : ContractDetail, detail.mappingWriters.isEmpty = false ↔
      ∃ record ∈ detail.functions, record.writesMapping = true := by
    intro detail
    rw [NameSet.isEmpty_eq_false_iff]
    constructor
    · rintro ⟨function, member⟩
      rcases (isWriter detail function).mp member with ⟨record, recordMember, flagged, -⟩
      exact ⟨record, recordMember, flagged⟩
    · rintro ⟨record, recordMember, flagged⟩
      exact ⟨record.name, (isWriter detail record.name).mpr ⟨record, recordMember, flagged, rfl⟩⟩
  simp only [UnitAnalysis.mappingWriters, NameMap.get?_filter_eq_some_iff, NameMap.get?_map,
    Option.map_eq_some_iff, Bool.not_eq_true']
  constructor
  · rintro ⟨⟨detail, found, rfl⟩, nonempty⟩
    exact ⟨detail, found, (listed detail).mp nonempty, isWriter detail⟩
  · rintro ⟨detail, found, flagged, memberIff⟩
    have equal : detail.mappingWriters = writers :=
      NameSet.ext_mem fun function => (isWriter detail function).trans (memberIff function).symm
    exact ⟨⟨detail, found, equal⟩, equal ▸ (listed detail).mpr flagged⟩

/-- With different names, the flags and the records of an analysis tell the
same. -/
theorem analyze_surveys (distinct : (unit.contracts.map (·.name)).Nodup) (config : Config) :
    unit.Surveys config := by
  refine ⟨unmarked_contracts_analyze unit config,
    NameMap.pairwise_flatMap_values contract_of_writeRecords, ?contracts, ?records,
    get?_mappingWriters_iff (unit.analyze config)⟩
  case contracts =>
    intro contract isContract
    rcases exists_defines (List.mem_map_of_mem isContract) with ⟨before, last, defines⟩
    rcases get?_details_of_defines defines with ⟨known, found⟩
    exact ⟨_, get?_contracts_of_details found,
      surveysContract_markWriters distinct isContract found⟩
  case records =>
    intro write member
    rw [mappingWrites_analyze] at member
    rcases List.mem_flatMap.mp member with ⟨detail, isValue, writeMember⟩
    rcases List.mem_map.mp isValue with ⟨⟨name, value⟩, entry, rfl⟩
    have found := NameMap.get?_eq_some_iff.mpr entry
    rcases exists_contract_of_details found with ⟨contract, isContract, rfl⟩
    exact ⟨contract, isContract, _, get?_contracts_of_details found,
      backsRecord_of_mem distinct isContract found writeMember⟩

/-- A token that inherits its balances.  Of the two overloads of `move` one writes
to them; `sweep` writes under a key that cannot be told. -/
def tokenUnit : SourceUnit where
  items :=
    let functionOf (name : String) (targets : List Expr) : Member :=
      .callable ⟨name, .function, none, some (targets.map fun target =>
        .conditional [.expression (.assignment "=" target)] none), .null⟩
    let balances : TypeName := .mapping (.elementary "address") (.elementary "uint")
    let sender : Expr := .memberAccess (.identifier "msg") "sender"
    [.contract ⟨"Vault", .contract, [],
        [.stateVariable ⟨"balances", some balances, none, .mutable, .absent⟩]⟩,
      .contract ⟨"Token", .contract, ["Vault"],
        [functionOf "move" [.indexAccess (.identifier "balances") (some sender)],
          functionOf "move" [.identifier "balances"],
          functionOf "sweep" [.indexAccess (.identifier "balances") (some (.other "Call"))]]⟩]

theorem tokenUnit_surveys :
    (tokenUnit.contracts.map (·.name)).Nodup ∧
    (tokenUnit.analyze ⟨.perContract, false, none⟩).mappingWrites =
      [⟨"Token", "move", "balances", ["move", "msg.sender"]⟩] ∧
    ((tokenUnit.analyze ⟨.perContract, false, none⟩).contracts.values.map fun detail =>
      detail.functions.map (·.writesMapping)) = [[true, false, true], []] ∧
    tokenUnit.Surveys ⟨.perContract, false, none⟩ :=
  ⟨by decide +kernel, by decide +kernel, by decide +kernel,
    analyze_surveys (by decide +kernel) ⟨.perContract, false, none⟩⟩

end SourceUnit

end SolidityModel
