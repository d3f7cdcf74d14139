import SolidityModel.Syntax.Expr

/-!
# Statements

Expression statements, conditionals and counting loops are kept in full, because
assignments are looked for in them.  Every other statement is remembered by its
kind.
-/

namespace SolidityModel

/-- A statement. -/
inductive Stmt where
  | expression (expr : Expr)
  /-- A conditional; without an `else` there is no second block. -/
  | conditional (thenBlock : List Stmt) (elseBlock : Option (List Stmt))
  /-- A `for` loop, of which only the body is kept. -/
  | forLoop (body : List Stmt)
  | other (kind : String)
  deriving Inhabited

/-- The statements between two braces.  A branch or loop body without braces is a
block of one statement. -/
abbrev Block := List Stmt

/-- The kind of a statement, the same in both tree shapes. -/
def Stmt.kind : Stmt → String
  | expression _ => "ExpressionStatement"
  | conditional _ _ => "IfStatement"
  | forLoop _ => "ForStatement"
  | other kind => kind

end SolidityModel
