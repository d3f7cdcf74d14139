import SolidityModel.Syntax.Expr
import SolidityModel.Tree.Dialect

/-!
# Reading expressions

A node that cannot be read as the expression its kind promises is kept by its
kind alone.
-/

namespace SolidityModel

namespace Expr

/-- The text of a literal that is a string, a number or a truth value. -/
def constantText? : Json → Option String
  | .bool true => some "true"
  | .bool false => some "false"
  | value => value.scalarText?

/-- The text of a literal node.  The legacy dialect has a kind for each sort of
literal.  The compact one has a single kind; bytes that are no text it gives only
in base sixteen. -/
def literalText? (dialect : Dialect) (kind : String) (node : Json) : Option String :=
  match dialect with
  | .legacy =>
      if kind = "NumberLiteral" then (node.field? "number").bind constantText?
      else if ["StringLiteral", "HexLiteral", "BooleanLiteral"].contains kind then
        (node.field? "value").bind constantText?
      else none
  | .compact =>
      if kind = "Literal" then
        match (node.field? "value").bind Json.scalarText? with
        | some text => some text
        | none => (node.textField? "hexValue").map fun digits => "hex\"" ++ digits ++ "\""
      else none

/-- The expression of a node. -/
def ofNode (dialect : Dialect) (node : Json) : Expr :=
  match dialect.kind? node with
  | none => .other ""
  | some kind =>
      if kind = dialect.assignmentKind then
        match node.textField? "operator", _ : node.child? dialect.targetField with
        | some operator, some target =>
            if isAssignmentOperator operator then .assignment operator (ofNode dialect target)
            else .other kind
        | _, _ => .other kind
      else if kind = "IndexAccess" then
        match _ : node.child? dialect.indexedField with
        | none => .other kind
        | some base =>
            match _ : node.child? dialect.indexField with
            | none => .indexAccess (ofNode dialect base) none
            | some index => .indexAccess (ofNode dialect base) (some (ofNode dialect index))
      else if kind = "MemberAccess" then
        match _ : node.child? "expression", node.textField? "memberName" with
        | some object, some member => .memberAccess (ofNode dialect object) member
        | _, _ => .other kind
      else if kind = "Identifier" then
        match node.textField? "name" with
        | some name => .identifier name
        | none => .other kind
      else
        match literalText? dialect kind node with
        | some text => .literal text
        | none => .other kind
termination_by sizeOf node
decreasing_by
  all_goals exact Json.sizeOf_lt_of_child? ‹_›

end Expr

end SolidityModel
