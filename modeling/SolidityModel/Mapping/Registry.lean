import SolidityModel.Contract.Aggregation
import SolidityModel.Mapping.Scope

/-!
# The mappings of a source unit
-/

namespace SolidityModel

/-- The mappings of a source unit, and the rule of their visibility. -/
structure MappingRegistry where
  scope : MappingScope
  /-- The names of all mappings. -/
  all : NameSet
  /-- The names of the mappings declared up to and including a contract.  Of
  contracts of one name the first place counts. -/
  declaredUpTo : NameMap NameSet
  deriving DecidableEq, Inhabited

namespace MappingRegistry

/-- The registry without mappings. -/
def empty (scope : MappingScope) : MappingRegistry :=
  ⟨scope, NameSet.empty, NameMap.empty⟩

/-- Go on to the next contract of the unit. -/
def visit (details : NameMap ContractDetail) (registry : MappingRegistry)
    (contract : String) : MappingRegistry :=
  let declared := ((details.get? contract).map ContractDetail.mappingNames).getD []
  let all := registry.all.addAll declared
  { registry with
    all
    declaredUpTo :=
      if registry.declaredUpTo.contains contract then registry.declaredUpTo
      else registry.declaredUpTo.insert contract all }

/-- The registry of the contracts of a unit in their order. -/
def ofContracts (order : List String) (details : NameMap ContractDetail)
    (scope : MappingScope) : MappingRegistry :=
  order.foldl (visit details) (empty scope)

/-- The names of the mappings that a contract may write to. -/
def visibleTo (registry : MappingRegistry) (detail : ContractDetail)
    (details : NameMap ContractDetail) : NameSet :=
  match registry.scope with
  | .global => (registry.declaredUpTo.get? detail.name).getD NameSet.empty
  | .perContract =>
      NameSet.ofList ((detail :: knownDetails details detail.parents).flatMap
        ContractDetail.mappingNames)

end MappingRegistry

end SolidityModel
