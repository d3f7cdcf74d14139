import SolidityModel.Syntax.Declaration
import SolidityModel.Tree.Stmt
import SolidityModel.Tree.TypeName

/-!
# Reading declarations

Nodes that lack the name they need are skipped, and so are values without a kind.
Whatever else cannot be read degrades: to no type, no location, no initial value.
-/

namespace SolidityModel

namespace Initializer

/-- The literal of a scalar, or an expression if there is no readable one. -/
def ofScalar (value? : Option Json) : Initializer :=
  match value?.bind Json.scalarText? with
  | some text => .literal text
  | none => .expression

/-- The initial value that an expression node gives. -/
def ofNode (dialect : Dialect) (node : Json) : Initializer :=
  match dialect with
  | .legacy =>
      match dialect.kind? node with
      | some "NumberLiteral" => ofScalar (node.field? "number")
      | some "StringLiteral" => ofScalar (node.field? "value")
      | _ => .expression
  | .compact =>
      if dialect.kind? node = some "Literal" then
        match node.textField? "kind" with
        | some kind =>
            if ["number", "string", "unicodeString", "hexString"].contains kind then
              ofScalar ((node.child? "value").or (node.child? "hexValue"))
            else .expression
        | none => .expression
      else .expression

end Initializer

/-- The mutability that a variable node states. -/
def Mutability.ofNode (dialect : Dialect) (node : Json) : Mutability :=
  match dialect with
  | .legacy =>
      if node.flag "isDeclaredConst" then .constant
      else if node.flag "isImmutable" || node.flag "isDeclaredImmutable" then .immutable
      else .mutable
  | .compact =>
      if node.flag "constant" then .constant
      else
        match node.textField? "mutability" with
        | some "constant" => .constant
        | some "immutable" => .immutable
        | _ => .mutable

namespace VarDecl

/-- The declared type of a variable node.  In the compact dialect the description
of the variable may say that its type is an enum where the type name does not. -/
def typeOfNode? (dialect : Dialect) (node : Json) : Option TypeName :=
  (node.child? "typeName").map fun type =>
    (TypeName.ofNode dialect type).markEnum (describesEnum dialect node)

/-- The declared type of a variable node as text: as the compact dialect describes
it, or else as the type name is shown. -/
def typeTextOfNode? (dialect : Dialect) (node : Json) : Option String :=
  let shown := (typeOfNode? dialect node).map TypeName.display
  match dialect with
  | .legacy => shown
  | .compact => ((node.child? "typeDescriptions").bind (·.textField? "typeString")).or shown

/-- The field of a variable node with its initial value. -/
def initialField : Dialect → String
  | .legacy => "expression"
  | .compact => "value"

/-- The variable of a node.  The legacy dialect may give the initial value beside
the variable rather than inside it. -/
def ofNode? (dialect : Dialect) (node : Json) (outerInitial? : Option Json) :
    Option VarDecl :=
  (node.textField? "name").map fun name => {
    name
    type? := typeOfNode? dialect node
    typeText? := typeTextOfNode? dialect node
    mutability := Mutability.ofNode dialect node
    initializer :=
      match (node.child? (initialField dialect)).or outerInitial? with
      | none => .absent
      | some value => Initializer.ofNode dialect value
  }

end VarDecl

/-- The struct of a node. -/
def StructDef.ofNode? (dialect : Dialect) (node : Json) : Option StructDef :=
  (node.textField? "name").map fun name =>
    { name, members := (node.items "members").filterMap (VarDecl.ofNode? dialect · none) }

/-- The enum of a node. -/
def EnumDef.ofNode? (node : Json) : Option EnumDef :=
  (node.textField? "name").map fun name =>
    { name, values := (node.items "members").filterMap (·.textField? "name") }

namespace CallableKind

/-- The kind of a function node.  In the legacy dialect a name that is `null`
marks a constructor and an empty one a fallback function. -/
def ofFunctionNode (dialect : Dialect) (node : Json) : CallableKind :=
  match dialect with
  | .legacy =>
      if node.flag "isConstructor" || ((node.field? "name").map Json.isNull).getD false then
        .constructor
      else if node.flag "isReceiveEther" then .receive
      else if node.flag "isFallback" || node.textField? "name" = some "" then .fallback
      else .function
  | .compact =>
      match node.textField? "kind" with
      | some "constructor" => .constructor
      | some "fallback" => .fallback
      | some "receive" => .receive
      | some _ => .function
      | none =>
          if node.flag "isConstructor" then .constructor
          else if ((node.textField? "name").getD "").isEmpty then .fallback
          else .function

end CallableKind

namespace Callable

/-- The number that a JSON value writes as plain digits, if it fits into 64
bits. -/
def index? : Json → Option Nat
  | .number text => Text.word64? text.toList
  | _ => none

/-- Where a definition stands: a pair of inclusive bounds in the legacy dialect, a
text in the compact one. -/
def rangeOfNode? (dialect : Dialect) (node : Json) : Option SourceRange :=
  match dialect with
  | .legacy =>
      match (node.items "range").mapM index? with
      | some [first, last] => SourceRange.ofInclusive? first last
      | _ => none
  | .compact =>
      (node.textField? "src").bind fun text => (SourceRange.parse text).toOption

/-- The name of a callable of a kind: the declared one, which must not be empty,
or that of the special function. -/
def nameOfNode? (kind : CallableKind) (node : Json) : Option String :=
  if kind.isNamed then (node.textField? "name").filter fun name => !name.isEmpty
  else some kind.keyword

/-- The function or modifier of a node. -/
def ofNode? (dialect : Dialect) (kind : CallableKind) (node : Json) : Option Callable :=
  (nameOfNode? kind node).map fun name => {
    name
    kind
    range? := rangeOfNode? dialect node
    body? := (node.child? "body").map (Block.ofNode dialect)
    node
  }

end Callable

namespace Member

/-- What a node in the list of a contract declares.  A legacy node may declare
several variables at once. -/
def listOfNode (dialect : Dialect) (node : Json) : List Member :=
  match dialect.kind? node with
  | none => []
  | some kind =>
      if dialect = .legacy ∧ kind = "StateVariableDeclaration" then
        ((node.items "variables").filterMap
          (VarDecl.ofNode? dialect · (node.child? "initialValue"))).map .stateVariable
      else if dialect = .compact ∧ kind = "VariableDeclaration" ∧ node.flag "stateVariable" then
        ((VarDecl.ofNode? dialect node none).map .stateVariable).toList
      else if kind = "StructDefinition" then
        ((StructDef.ofNode? dialect node).map .structDef).toList
      else if kind = "EnumDefinition" then
        ((EnumDef.ofNode? node).map .enumDef).toList
      else if kind = "FunctionDefinition" then
        ((Callable.ofNode? dialect (CallableKind.ofFunctionNode dialect node) node).map
          .callable).toList
      else if kind = "ModifierDefinition" then
        ((Callable.ofNode? dialect .modifier node).map .callable).toList
      else [.other kind]

end Member

namespace ContractDef

/-- The members of a contract node. -/
def membersOfNode (dialect : Dialect) (node : Json) : List Member :=
  (node.items dialect.membersField).flatMap (Member.listOfNode dialect)

/-- The keyword of a contract node. -/
def kindOfNode (dialect : Dialect) (node : Json) : ContractKind :=
  match dialect with
  | .legacy =>
      match node.textField? "kind" with
      | some "interface" => .interface
      | some "library" => .library
      | some "abstract" => .abstract
      | _ => .contract
  | .compact =>
      match node.textField? "contractKind" with
      | some "interface" => .interface
      | some "library" => .library
      | _ => if node.flag "abstract" then .abstract else .contract

/-- The names of the direct bases of a contract node.  An unreadable base is
skipped. -/
def basesOfNode (dialect : Dialect) (node : Json) : List String :=
  (node.items "baseContracts").filterMap fun base =>
    (base.child? "baseName").bind (referencePath? dialect)

/-- The contract of a node. -/
def ofNode? (dialect : Dialect) (node : Json) : Option ContractDef :=
  (node.textField? "name").map fun name => {
    name
    kind := kindOfNode dialect node
    bases := basesOfNode dialect node
    members := membersOfNode dialect node
  }

end ContractDef

end SolidityModel
