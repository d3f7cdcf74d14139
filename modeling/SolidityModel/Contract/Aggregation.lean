import SolidityModel.Contract.Detail
import SolidityModel.Inheritance.Linearization
import SolidityModel.Syntax.SourceUnit
import SolidityModel.Types.Registry

/-!
# Aggregation of contracts

One pass over a source unit, in its order, resolves the types of its variables,
sets literal constants apart, and gathers what every contract inherits from those
of its ancestors that the pass has met before.
-/

namespace SolidityModel

/-- The constant that a declaration makes: it cannot change, and its value is a
literal. -/
def ConstantVar.ofDecl? (contract : String) (decl : VarDecl) : Option ConstantVar :=
  if decl.mutability = .mutable then none
  else decl.initializer.literal?.map fun value =>
    { contract, name := decl.name, declaredType := decl.typeText?.getD "", value }

/-- What the members of one contract add up to. -/
structure OwnMembers where
  /-- The types defined so far, those of the contract included. -/
  registry : TypeRegistry
  constants : List ConstantVar
  stateVariables : List Variable
  callables : List Callable
  deriving Inhabited

namespace OwnMembers

/-- Nothing but the types defined before the contract. -/
def start (registry : TypeRegistry) : OwnMembers := ⟨registry, [], [], []⟩

/-- Add a state variable: to the constants if it is one, and to the variables if
its type resolves. -/
def addVariable (contract : String) (own : OwnMembers) (decl : VarDecl) : OwnMembers :=
  match ConstantVar.ofDecl? contract decl with
  | some constant => { own with constants := own.constants ++ [constant] }
  | none =>
      { own with stateVariables :=
          own.stateVariables ++ (own.registry.resolveVariable? decl).toList }

/-- Add one member. -/
def add (contract : String) (own : OwnMembers) : Member → OwnMembers
  | .stateVariable decl => own.addVariable contract decl
  | .structDef definition => { own with registry := own.registry.registerStruct definition }
  | .enumDef definition => { own with registry := own.registry.registerEnum definition }
  | .callable definition => { own with callables := own.callables ++ [definition] }
  | .other _ => own

/-- What the members of a contract add up to, after the given types. -/
def ofContract (registry : TypeRegistry) (contract : ContractDef) : OwnMembers :=
  contract.members.foldl (add contract.name) (start registry)

/-- The names of the functions among the callables. -/
def functionNames (own : OwnMembers) : List String :=
  (own.callables.filter (·.kind.isFunction)).map (·.name)

end OwnMembers

/-- The details of those contracts of a list that are known. -/
def knownDetails (details : NameMap ContractDetail) (names : List String) :
    List ContractDetail :=
  names.filterMap details.get?

/-- The variables of known ancestors in their order.  Of equal variables the first
one stays. -/
def inheritedVariables (ancestors : List ContractDetail) : List Variable :=
  (ancestors.flatMap (·.stateVariables)).eraseDups

/-- The detail of a contract from its own members and from the details known
before it.  Without an order of its ancestors a contract inherits nothing. -/
def ContractDetail.ofContract (contract : ContractDef) (own : OwnMembers)
    (ancestors : Except InheritanceError (List String)) (details : NameMap ContractDetail) :
    ContractDetail :=
  let parents := ancestors.toOption.getD []
  let inherited := knownDetails details parents
  { name := contract.name
    kind := contract.kind
    functionNames := inherited.foldl (fun names base => names.addAll base.functionNames.toList)
      (NameSet.ofList own.functionNames)
    stateVariables := inheritedVariables inherited ++ own.stateVariables
    parents
    mappings := own.stateVariables.filterMap MappingDecl.ofVariable?
    functions := own.callables.map fun definition => { definition, writesMapping := false }
    errors := match ancestors with
      | .ok _ => []
      | .error error => [error] }

/-- What a pass over a source unit has gathered. -/
structure Aggregation where
  /-- The details of the contracts by name.  Of contracts of one name the last one
  counts. -/
  details : NameMap ContractDetail
  /-- The constants in the order of their declarations. -/
  constants : List ConstantVar
  /-- The types defined so far. -/
  registry : TypeRegistry
  deriving Inhabited

namespace Aggregation

/-- Nothing gathered. -/
def empty : Aggregation := ⟨NameMap.empty, [], TypeRegistry.empty⟩

/-- Pass over a contract. -/
def visitContract (linearization : Linearization) (aggregation : Aggregation)
    (contract : ContractDef) : Aggregation :=
  let own := OwnMembers.ofContract aggregation.registry contract
  let detail := ContractDetail.ofContract contract own
    (linearization.ancestorsOf contract.name) aggregation.details
  { details := aggregation.details.insert contract.name detail
    constants := aggregation.constants ++ own.constants
    registry := own.registry }

/-- Pass over one item of a unit. -/
def visit (linearization : Linearization) (aggregation : Aggregation) :
    UnitItem → Aggregation
  | .contract definition => aggregation.visitContract linearization definition
  | .structDef definition =>
      { aggregation with registry := aggregation.registry.registerStruct definition }
  | .enumDef definition =>
      { aggregation with registry := aggregation.registry.registerEnum definition }
  | .pragma _ _ => aggregation
  | .other _ => aggregation

/-- Pass over a whole unit. -/
def ofUnit (unit : SourceUnit) (linearization : Linearization) : Aggregation :=
  unit.items.foldl (visit linearization) empty

end Aggregation

end SolidityModel
