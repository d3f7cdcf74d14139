import SolidityModel.Analysis

/-!
# Analyses as JSON

Every part of an analysis is an object with its fields in a fixed order.  A value
that may be missing is `null` without it, maps and sets follow the order of their
names, and a field that tells alternatives apart comes first.
-/

namespace SolidityModel

namespace Json

/-- A string, or `null`. -/
def ofText? : Option String → Json
  | some text => string text
  | none => null

/-- A natural number. -/
def ofNat (value : Nat) : Json :=
  number (toString value)

/-- An array of strings. -/
def ofTexts (texts : List String) : Json :=
  array (texts.map string)

/-- An object with the names of a map as its fields. -/
def ofMap {α : Type} (encode : α → Json) (map : NameMap α) : Json :=
  object (map.entries.map fun entry => (entry.1, encode entry.2))

/-- An object with one field. -/
def tagged (tag : String) (content : Json) : Json :=
  object [(tag, content)]

end Json

/-- A length as JSON. -/
def ArrayLength.toJson : ArrayLength → Json
  | literal text => .tagged "Literal" (.string text)
  | constant path => .tagged "Constant" (.string path)

/-- A dimension as JSON. -/
def dimensionToJson (length : Option ArrayLength) : Json :=
  .object [("length", (length.map ArrayLength.toJson).getD .null),
    ("is_static", .bool length.isSome)]

namespace ResolvedType

mutual

/-- A resolved type as JSON. -/
def toJson : ResolvedType → Json
  | elementary name => .object [("type", .string "elementary"), ("name", .string name)]
  | enum name => .object [("type", .string "enum"), ("name", .string name)]
  | userDefined name members =>
      .object [("type", .string "user_defined"), ("name", .string name),
        ("members", .array (membersToJson members))]
  | mapping keyType value =>
      .object [("type", .string "mapping"), ("key_type", .string keyType),
        ("value", value.toJson)]
  | array element dimensions =>
      .object [("type", .string "array"), ("element", element.toJson),
        ("dimensions", .array (dimensions.map dimensionToJson))]

/-- The members of a struct as JSON. -/
def membersToJson : List (Binding ResolvedType) → List Json
  | [] => []
  | ⟨name, type⟩ :: rest =>
      .object [("name", .string name), ("ty", type.toJson)] :: membersToJson rest

end

end ResolvedType

/-- Variables as JSON. -/
def variablesToJson (entries : List Variable) : Json :=
  .array (ResolvedType.membersToJson entries)

/-- The definition of a type as JSON. -/
def RegisteredType.toJson : RegisteredType → Json
  | struct members => .object [("kind", .string "struct"), ("members", variablesToJson members)]
  | enum => .object [("kind", .string "enum")]

/-- A source range as JSON. -/
def SourceRange.toJson (range : SourceRange) : Json :=
  .object [("start", .ofNat range.start), ("length", .ofNat range.length),
    ("file", .ofNat range.file)]

/-- An inheritance error as JSON. -/
def InheritanceError.toJson : InheritanceError → Json
  | inconsistent contract remaining =>
      .tagged "InconsistentHierarchy" (.object [("contract", .string contract),
        ("remaining", .array (remaining.map .ofTexts))])
  | cyclic contract path =>
      .tagged "CyclicInheritance" (.object [("contract", .string contract),
        ("path", .ofTexts path)])

/-- The problem of a unit as JSON. -/
def UnitError.toJson : UnitError → Json
  | inheritance error => .tagged "Inheritance" error.toJson
  | unknownFocus contract => .tagged "Config" (.string (unknownFocusText contract))

/-- An inheritance tree as JSON. -/
def InheritanceTree.toJson (tree : InheritanceTree) : Json :=
  .object [("bases", .ofMap .ofTexts tree.declared)]

/-- A linearization as JSON. -/
def Linearization.toJson (linearization : Linearization) : Json :=
  .object [("entries", .ofMap .ofTexts linearization.orders),
    ("failures", .ofMap InheritanceError.toJson linearization.failures)]

/-- A diamond report as JSON. -/
def DiamondReport.toJson (report : DiamondReport) : Json :=
  .object [("root", .string report.root), ("counts", .ofMap .ofNat report.counts)]

/-- A function or modifier as JSON. -/
def FunctionRecord.toJson (record : FunctionRecord) : Json :=
  .object [("name", .string record.name), ("kind", .string record.definition.kind.keyword),
    ("src", (record.definition.range?.map SourceRange.toJson).getD .null),
    ("writes_mapping", .bool record.writesMapping)]

/-- The detail of a contract as JSON. -/
def ContractDetail.toJson (detail : ContractDetail) : Json :=
  .object [("name", .string detail.name), ("kind", .string detail.kind.keyword),
    ("function_names", .ofTexts detail.functionNames.toList),
    ("state_variables", variablesToJson detail.stateVariables),
    ("parents", .ofTexts detail.parents),
    ("mapping_declarations", .array (detail.mappings.map fun mapping =>
      .object [("name", .string mapping.name), ("key_type", .string mapping.keyType)])),
    ("functions", .array (detail.functions.map FunctionRecord.toJson)),
    ("errors", .array (detail.errors.map InheritanceError.toJson))]

/-- A constant as JSON. -/
def ConstantVar.toJson (constant : ConstantVar) : Json :=
  .object [("contract", .string constant.contract), ("name", .string constant.name),
    ("declared_type", .string constant.declaredType), ("value", .string constant.value)]

/-- A write to a mapping as JSON. -/
def MappingWrite.toJson (write : MappingWrite) : Json :=
  .object [("contract", .string write.contract), ("function", .string write.function),
    ("mapping", .string write.mapping), ("key_path", .ofTexts write.keyPath)]

/-- The mappings of a unit as JSON. -/
def MappingRegistry.toJson (registry : MappingRegistry) : Json :=
  .object [("scope", .string registry.scope.key), ("all", .ofTexts registry.all.toList)]

/-- An analysis as JSON. -/
def UnitAnalysis.toJson (analysis : UnitAnalysis) : Json :=
  .object [("compiler_version", .ofText? analysis.compilerVersion?),
    ("version_req", .ofText? (analysis.versionReq?.map VersionReq.display)),
    ("inheritance", analysis.inheritance.toJson),
    ("linearization", analysis.linearization.toJson),
    ("diamonds", (analysis.diamonds?.map DiamondReport.toJson).getD .null),
    ("types", .object [("types", .ofMap RegisteredType.toJson analysis.types.types)]),
    ("contracts", .ofMap ContractDetail.toJson analysis.contracts),
    ("constants", .array (analysis.constants.map ConstantVar.toJson)),
    ("mappings", analysis.mappings.toJson),
    ("mapping_writes", .array (analysis.mappingWrites.map MappingWrite.toJson)),
    ("errors", .array (analysis.errors.map UnitError.toJson))]

end SolidityModel
