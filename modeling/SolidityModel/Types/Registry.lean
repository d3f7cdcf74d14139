import SolidityModel.NameMap
import SolidityModel.Syntax.Declaration
import SolidityModel.Syntax.QualifiedName
import SolidityModel.Types.ResolvedType

/-!
# Resolving types

A registry holds the structs and enums defined so far by their unqualified names.
A type resolves against the registry of its own place in the unit, and what comes
later does not change it.
-/

namespace SolidityModel

/-- The definition of a type that has a name. -/
inductive RegisteredType where
  /-- A struct with its resolved members. -/
  | struct (members : List Variable)
  | enum
  deriving DecidableEq, Inhabited

/-- The types defined so far by their unqualified names. -/
structure TypeRegistry where
  types : NameMap RegisteredType
  deriving DecidableEq, Inhabited

namespace TypeRegistry

/-- The registry before any definition. -/
def empty : TypeRegistry := ⟨NameMap.empty⟩

/-- The definition that a possibly qualified name stands for. -/
def get? (registry : TypeRegistry) (path : String) : Option RegisteredType :=
  registry.types.get? (lastSegment path)

/-- Whether a possibly qualified name stands for an enum. -/
def isEnum (registry : TypeRegistry) (path : String) : Bool :=
  registry.get? path = some .enum

/-- The members of the struct that a possibly qualified name stands for, none if
it stands for no struct. -/
def membersOf (registry : TypeRegistry) (path : String) : List Variable :=
  match registry.get? path with
  | some (.struct members) => members
  | _ => []

/-- Enter a definition, over an earlier one of the same unqualified name. -/
def register (registry : TypeRegistry) (path : String) (definition : RegisteredType) :
    TypeRegistry :=
  ⟨registry.types.insert (lastSegment path) definition⟩

end TypeRegistry

namespace ResolvedType

/-- An array of a type with one more dimension, which is written last. -/
def addDimension (length : Option ArrayLength) : ResolvedType → ResolvedType
  | array element dimensions => .array element (dimensions ++ [length])
  | element => .array element [length]

end ResolvedType

namespace TypeRegistry

/-- The type that a reference resolves to. -/
def resolveReference (registry : TypeRegistry) (path : String) (knownEnum : Bool) :
    ResolvedType :=
  if knownEnum || registry.isEnum path then .enum (lastSegment path)
  else .userDefined (lastSegment path) (registry.membersOf path)

/-- Resolve a type name.  Function types and unknown types have no resolution, and
neither have the types built from them. -/
def resolve? (registry : TypeRegistry) : TypeName → Option ResolvedType
  | .elementary name => some (.elementary name)
  | .userDefined path knownEnum => some (registry.resolveReference path knownEnum)
  | .mapping key value => (registry.resolve? value).map (.mapping key.display)
  | .array base length => (registry.resolve? base).map (.addDimension length)
  | .function => none
  | .unknown _ => none

/-- Resolve a declaration, which needs a type. -/
def resolveVariable? (registry : TypeRegistry) (decl : VarDecl) : Option Variable :=
  (decl.type?.bind registry.resolve?).map fun type => ⟨decl.name, type⟩

/-- The members of a struct definition, as they resolve before the struct itself
is entered. -/
def membersOfStruct (registry : TypeRegistry) (definition : StructDef) : List Variable :=
  definition.members.filterMap registry.resolveVariable?

/-- Enter a struct definition. -/
def registerStruct (registry : TypeRegistry) (definition : StructDef) : TypeRegistry :=
  registry.register definition.name (.struct (registry.membersOfStruct definition))

/-- Enter an enum definition. -/
def registerEnum (registry : TypeRegistry) (definition : EnumDef) : TypeRegistry :=
  registry.register definition.name .enum

end TypeRegistry

end SolidityModel
