/-!
# Expressions

Only assignments and what can stand on their left-hand side, or as a key between
brackets, are kept in full.  Every other expression is remembered by its kind.
-/

namespace SolidityModel

/-- An expression. -/
inductive Expr where
  /-- A plain or compound assignment to `target`. -/
  | assignment (operator : String) (target : Expr)
  /-- `base[index]`; a type expression such as `uint[]` has no index. -/
  | indexAccess (base : Expr) (index : Option Expr)
  | memberAccess (object : Expr) (member : String)
  | identifier (name : String)
  /-- A literal, as written. -/
  | literal (text : String)
  /-- A call, an operator, a tuple or any other expression, by its kind. -/
  | other (kind : String)
  deriving Inhabited

/-- Whether a binary operator writes to its left-hand side.  The comparisons hold
an equals sign too and never do. -/
def isAssignmentOperator (operator : String) : Bool :=
  operator.toList.contains '=' && operator ∉ ["==", "!=", "<=", ">="]

namespace Expr

/-- An identifier, or a chain of member accesses over one, as a dotted path. -/
def dottedPath? : Expr → Option String
  | identifier name => some name
  | memberAccess object member => object.dottedPath?.map fun path => path ++ "." ++ member
  | _ => none

/-- The text by which an index is recorded: a literal as written, or a dotted
path. -/
def key? : Expr → Option String
  | literal text => some text
  | expr => expr.dottedPath?

/-- What stands under a chain of index accesses, and the indices from the one
written first to the one written last. -/
def indexChain : Expr → Expr × List (Option Expr)
  | indexAccess base index => (base.indexChain.1, base.indexChain.2 ++ [index])
  | expr => (expr, [])

end Expr

end SolidityModel
