import SolidityModel.Syntax.Declaration

/-!
# Source units
-/

namespace SolidityModel

/-- What a source unit declares. -/
inductive UnitItem where
  | pragma (name value : String)
  | contract (definition : ContractDef)
  | structDef (definition : StructDef)
  | enumDef (definition : EnumDef)
  /-- An import, a free function, an event or the like, by its kind. -/
  | other (kind : String)
  deriving Inhabited

/-- The declarations of one source unit in their order. -/
structure SourceUnit where
  items : List UnitItem
  deriving Inhabited

namespace UnitItem

/-- The definition of an item that is a contract. -/
def contract? : UnitItem → Option ContractDef
  | contract definition => some definition
  | _ => none

/-- The value of an item that is a pragma on the language version. -/
def versionPragma? : UnitItem → Option String
  | pragma name value => if name = "solidity" then some value else none
  | _ => none

end UnitItem

namespace SourceUnit

/-- The contracts of the unit in their order. -/
def contracts (unit : SourceUnit) : List ContractDef :=
  unit.items.filterMap UnitItem.contract?

/-- The first requirement on the language version, as written. -/
def versionPragma? (unit : SourceUnit) : Option String :=
  unit.items.findSome? UnitItem.versionPragma?

end SourceUnit

end SolidityModel
