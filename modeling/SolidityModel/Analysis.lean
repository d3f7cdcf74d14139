import SolidityModel.Config
import SolidityModel.Inheritance.Diamonds
import SolidityModel.Mapping.Registry
import SolidityModel.Mapping.Writes
import SolidityModel.Tree.SourceUnit
import SolidityModel.Version.Pragma

/-!
# Analysis of a source unit

The analysis linearizes the contracts of a unit, aggregates what they declare and
inherit, looks for writes to mappings once all of that is known, and reports the
diamonds above one contract.  Problems inside a unit are part of its result; only
a tree without a unit has none.
-/

namespace SolidityModel

/-- A problem of a unit that does not stop its analysis. -/
inductive UnitError where
  | inheritance (error : InheritanceError)
  /-- The contract whose diamonds were asked for is not in the unit. -/
  | unknownFocus (contract : String)
  deriving DecidableEq, Inhabited

namespace UnitError

/-- The wording of what is wrong with the contract asked for. -/
def unknownFocusText (contract : String) : String :=
  "focus contract `" ++ contract ++ "` is not defined"

/-- The wording of a problem. -/
def message : UnitError → String
  | inheritance error => error.message
  | unknownFocus contract => "invalid configuration: " ++ unknownFocusText contract

end UnitError

/-- Why a tree has no analysis. -/
inductive TreeError where
  /-- The tree holds no list of top-level nodes. -/
  | missingSourceUnit
  /-- No top-level node is of a known dialect. -/
  | unknownDialect
  deriving DecidableEq, Inhabited

/-- The wording of an error. -/
def TreeError.message : TreeError → String
  | missingSourceUnit => "no source unit found in the syntax tree"
  | unknownDialect => "top-level nodes match neither the legacy nor the compact schema"

/-- Everything derived from a source unit. -/
structure UnitAnalysis where
  /-- The first requirement on the language version, as written. -/
  compilerVersion? : Option String
  /-- The same requirement, if it can be understood. -/
  versionReq? : Option VersionReq
  inheritance : InheritanceTree
  linearization : Linearization
  /-- The diamonds above the focus contract, unless they could not be found. -/
  diamonds? : Option DiamondReport
  types : TypeRegistry
  contracts : NameMap ContractDetail
  constants : List ConstantVar
  mappings : MappingRegistry
  /-- The writes by ascending contract name, then in the order of the
  declarations. -/
  mappingWrites : List MappingWrite
  errors : List UnitError

namespace ContractDetail

/-- The writes of the functions and modifiers of a contract that sees the given
mappings, in the order of the declarations. -/
def writes (detail : ContractDetail) (mappings : NameSet) : List CallableWrites :=
  detail.functions.map fun record => record.definition.writes detail.name mappings

/-- The detail with every function and modifier marked that writes to a mapping it
sees. -/
def markWriters (detail : ContractDetail) (mappings : NameSet) : ContractDetail :=
  { detail with functions := detail.functions.map fun record =>
      { record with
        writesMapping := record.writesMapping
          || (record.definition.writes detail.name mappings).writesMapping } }

end ContractDetail

/-- The contract whose diamonds are reported: the one asked for or else the last
one. -/
def focusOf? (config : Config) (unit : SourceUnit) : Option String :=
  config.focus?.or (unit.contracts.getLast?.map (·.name))

/-- The diamonds above the focus contract, or what is wrong with it. -/
def reportDiamonds (tree : InheritanceTree) (contracts : NameMap ContractDetail) :
    (focus? : Option String) → Option DiamondReport × List UnitError
  | none => (none, [])
  | some focus =>
      if contracts.contains focus then
        match tree.diamonds focus with
        | .ok report => (some report, [])
        | .error error => (none, [.inheritance error])
      else (none, [.unknownFocus focus])

/-- The writes of all contracts that see the mappings of a registry. -/
def allWrites (mappings : MappingRegistry) (details : NameMap ContractDetail) :
    List MappingWrite :=
  details.values.flatMap fun detail =>
    (detail.writes (mappings.visibleTo detail details)).flatMap (·.records)

/-- The analysis of a source unit. -/
def SourceUnit.analyze (unit : SourceUnit) (config : Config) : UnitAnalysis :=
  let inheritance := InheritanceTree.ofContracts unit.contracts
  let linearization := inheritance.linearize
  let aggregation := Aggregation.ofUnit unit linearization
  let mappings := MappingRegistry.ofContracts (unit.contracts.map (·.name))
    aggregation.details config.scope
  let (diamonds?, errors) := reportDiamonds inheritance aggregation.details
    (focusOf? config unit)
  { compilerVersion? := unit.versionPragma?
    versionReq? := unit.versionPragma?.bind VersionReq.ofPragma?
    inheritance
    linearization
    diamonds?
    types := aggregation.registry
    contracts := aggregation.details.map fun detail =>
      detail.markWriters (mappings.visibleTo detail aggregation.details)
    constants := aggregation.constants
    mappings
    mappingWrites := allWrites mappings aggregation.details
    errors }

/-- The analysis of the source unit in a syntax tree. -/
def analyzeTree (config : Config) (tree : Json) : Except TreeError UnitAnalysis :=
  match SourceUnit.nodes? tree with
  | none => .error .missingSourceUnit
  | some nodes =>
      if !nodes.isEmpty && nodes.all (fun node => (Dialect.detect? node).isNone) then
        .error .unknownDialect
      else .ok ((SourceUnit.ofNodes nodes).analyze config)

namespace UnitAnalysis

/-- The detail of a contract. -/
def contract? (analysis : UnitAnalysis) (name : String) : Option ContractDetail :=
  analysis.contracts.get? name

/-- The definitions of the functions of every contract by name. -/
def functionBodies (analysis : UnitAnalysis) : NameMap (NameMap Json) :=
  analysis.contracts.map ContractDetail.functionBodies

/-- The functions and modifiers that write to a mapping, by contract.  Contracts
without any are left out. -/
def mappingWriters (analysis : UnitAnalysis) : NameMap NameSet :=
  (analysis.contracts.map ContractDetail.mappingWriters).filter fun _ writers =>
    !writers.isEmpty

end UnitAnalysis

end SolidityModel
