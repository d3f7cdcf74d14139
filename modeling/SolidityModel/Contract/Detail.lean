import SolidityModel.Inheritance.Error
import SolidityModel.NameSet
import SolidityModel.Syntax.Declaration
import SolidityModel.Types.ResolvedType

/-!
# What is known about a contract
-/

namespace SolidityModel

/-- A mapping that a contract declares as a state variable. -/
structure MappingDecl where
  name : String
  /-- The type of its keys as text. -/
  keyType : String
  deriving DecidableEq, Inhabited

/-- The mapping declaration of a state variable that is a mapping. -/
def MappingDecl.ofVariable? (declared : Variable) : Option MappingDecl :=
  declared.type.keyType?.map fun keyType => ⟨declared.name, keyType⟩

/-- A function or modifier of a contract. -/
structure FunctionRecord where
  definition : Callable
  /-- Whether its body writes to a visible mapping. -/
  writesMapping : Bool
  deriving Inhabited

namespace FunctionRecord

/-- The name of the function or modifier. -/
def name (record : FunctionRecord) : String :=
  record.definition.name

/-- Whether the record is of a function rather than a modifier. -/
def isFunction (record : FunctionRecord) : Bool :=
  record.definition.kind.isFunction

end FunctionRecord

/-- A constant or immutable state variable with a literal as its value. -/
structure ConstantVar where
  /-- The declaring contract. -/
  contract : String
  name : String
  /-- The declared type as text, empty if the tree does not tell it. -/
  declaredType : String
  /-- The literal as written. -/
  value : String
  deriving DecidableEq, Inhabited

/-- Everything known about one contract. -/
structure ContractDetail where
  name : String
  kind : ContractKind
  /-- The names of the own and of the inherited functions, modifiers left out. -/
  functionNames : NameSet
  /-- The inherited variables in the order of the ancestors, each once, and then
  the own ones in the order of their declarations. -/
  stateVariables : List Variable
  /-- The ancestors, nearest first. -/
  parents : List String
  /-- The mappings among the own variables. -/
  mappings : List MappingDecl
  /-- The own functions and modifiers in the order of their declarations. -/
  functions : List FunctionRecord
  /-- Why there are no ancestors, if their order failed. -/
  errors : List InheritanceError
  deriving Inhabited

namespace ContractDetail

/-- The names of the functions and modifiers that write to a mapping. -/
def mappingWriters (detail : ContractDetail) : NameSet :=
  NameSet.ofList ((detail.functions.filter (·.writesMapping)).map (·.name))

/-- The definitions of the own functions by name.  Of overloads the last one
counts. -/
def functionBodies (detail : ContractDetail) : NameMap Json :=
  NameMap.ofList ((detail.functions.filter (·.isFunction)).map fun record =>
    (record.name, record.definition.node))

/-- The state variable that a name stands for: of several the last one. -/
def stateVariable? (detail : ContractDetail) (name : String) : Option Variable :=
  detail.stateVariables.reverse.find? (·.name = name)

/-- The names of the mappings that the contract itself declares. -/
def mappingNames (detail : ContractDetail) : List String :=
  detail.mappings.map (·.name)

end ContractDetail

end SolidityModel
