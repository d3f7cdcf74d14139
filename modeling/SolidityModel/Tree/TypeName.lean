import SolidityModel.Syntax.TypeName
import SolidityModel.Tree.Expr

/-!
# Reading type names

A node that cannot be read as the type its kind promises is an unknown type of
that kind.
-/

namespace SolidityModel

/-- The dotted path of a reference.  The compact dialect has kept it in three
places over time. -/
def referencePath? (dialect : Dialect) (node : Json) : Option String :=
  match dialect with
  | .legacy => node.textField? "namePath"
  | .compact =>
      (((node.child? "pathNode").bind fun path => path.textField? "name").or
        (node.textField? "name")).or (node.textField? "namePath")

/-- Whether the description of a node's type says that it is an enum.  Only the
compact dialect describes types. -/
def describesEnum (dialect : Dialect) (node : Json) : Bool :=
  match dialect with
  | .legacy => false
  | .compact =>
      match (node.child? "typeDescriptions").bind (·.textField? "typeIdentifier") with
      | some identifier => "t_enum".toList.isPrefixOf identifier.toList
      | none => false

namespace ArrayLength

/-- The dotted path of a length that names a constant. -/
def constantOf? : Expr → Option ArrayLength
  | .identifier name => some (.constant name)
  | .memberAccess object member =>
      ((Expr.memberAccess object member).dottedPath?).map .constant
  | _ => none

/-- The length that a node gives.  Anything but a literal or a constant is as good
as no length; the legacy dialect takes numbers as its only literals. -/
def ofNode? (dialect : Dialect) (node : Json) : Option ArrayLength :=
  match dialect with
  | .legacy =>
      if dialect.kind? node = some "NumberLiteral" then
        ((node.field? "number").bind Json.scalarText?).map .literal
      else constantOf? (Expr.ofNode dialect node)
  | .compact =>
      match Expr.ofNode dialect node with
      | .literal text => some (.literal text)
      | expr => constantOf? expr

end ArrayLength

namespace TypeName

/-- The type of a node. -/
def ofNode (dialect : Dialect) (node : Json) : TypeName :=
  match dialect.kind? node with
  | none => .unknown ""
  | some kind =>
      if kind = "ElementaryTypeName" then
        match node.textField? "name" with
        | some name => .elementary name
        | none => .unknown kind
      else if kind = "UserDefinedTypeName" then
        match referencePath? dialect node with
        | some path => .userDefined path (describesEnum dialect node)
        | none => .unknown kind
      else if kind = "Mapping" then
        match _ : node.child? "keyType", _ : node.child? "valueType" with
        | some key, some value => .mapping (ofNode dialect key) (ofNode dialect value)
        | _, _ => .unknown kind
      else if kind = "ArrayTypeName" then
        match _ : node.child? dialect.elementField with
        | some base =>
            .array (ofNode dialect base)
              ((node.child? "length").bind (ArrayLength.ofNode? dialect))
        | none => .unknown kind
      else if kind = "FunctionTypeName" then .function
      else .unknown kind
termination_by sizeOf node
decreasing_by
  all_goals exact Json.sizeOf_lt_of_child? ‹_›

/-- Note that a type is an enum, which only a reference can be. -/
def markEnum (isEnum : Bool) : TypeName → TypeName
  | userDefined path knownEnum => .userDefined path (knownEnum || isEnum)
  | type => type

end TypeName

end SolidityModel
