import SolidityModel.Json
import SolidityModel.Syntax.SourceRange
import SolidityModel.Syntax.Stmt
import SolidityModel.Syntax.TypeName

/-!
# Declarations

Contracts and what they declare: state variables, structs, enums, functions and
modifiers.
-/

namespace SolidityModel

/-- How a variable may change. -/
inductive Mutability where
  | mutable
  | constant
  | immutable
  deriving DecidableEq, Inhabited

/-- The initial value of a variable. -/
inductive Initializer where
  | absent
  /-- A number or string literal, as written. -/
  | literal (text : String)
  /-- Any other expression, truth values included. -/
  | expression
  deriving DecidableEq, Inhabited

/-- The text of an initial value that is a literal. -/
def Initializer.literal? : Initializer → Option String
  | literal text => some text
  | _ => none

/-- The declaration of a state variable or of a struct member. -/
structure VarDecl where
  name : String
  /-- The declared type, if the tree has a readable one. -/
  type? : Option TypeName
  /-- The declared type as text, if the tree tells it. -/
  typeText? : Option String
  mutability : Mutability
  initializer : Initializer
  deriving DecidableEq, Inhabited

/-- The definition of a struct. -/
structure StructDef where
  name : String
  members : List VarDecl
  deriving DecidableEq, Inhabited

/-- The definition of an enum. -/
structure EnumDef where
  name : String
  values : List String
  deriving DecidableEq, Inhabited

/-- The kinds of functions, and modifiers. -/
inductive CallableKind where
  | function
  | constructor
  | fallback
  | receive
  | modifier
  deriving DecidableEq, Inhabited

namespace CallableKind

/-- The keyword of a kind, which is also the name of the special functions. -/
def keyword : CallableKind → String
  | function => "function"
  | constructor => "constructor"
  | fallback => "fallback"
  | receive => "receive"
  | modifier => "modifier"

/-- Whether a callable is a function of any kind. -/
def isFunction (kind : CallableKind) : Bool :=
  kind ≠ modifier

/-- Whether a callable goes by the name it was declared with. -/
def isNamed (kind : CallableKind) : Bool :=
  kind = function || kind = modifier

end CallableKind

/-- The definition of a function or modifier. -/
structure Callable where
  name : String
  kind : CallableKind
  /-- Where the definition stands, if the tree tells it. -/
  range? : Option SourceRange
  /-- The statements; a function without an implementation has none. -/
  body? : Option Block
  /-- The definition as it stands in the tree. -/
  node : Json
  deriving Inhabited

/-- The keywords that open the definition of a contract. -/
inductive ContractKind where
  | contract
  | abstract
  | interface
  | library
  deriving DecidableEq, Inhabited

/-- The keyword of a kind. -/
def ContractKind.keyword : ContractKind → String
  | contract => "contract"
  | abstract => "abstract"
  | interface => "interface"
  | library => "library"

/-- What a contract declares. -/
inductive Member where
  | stateVariable (decl : VarDecl)
  | structDef (definition : StructDef)
  | enumDef (definition : EnumDef)
  | callable (definition : Callable)
  /-- An event, an error, a directive or the like, by its kind. -/
  | other (kind : String)
  deriving Inhabited

/-- The definition of a contract, an interface or a library. -/
structure ContractDef where
  name : String
  kind : ContractKind
  /-- The direct bases in the order in which they are written. -/
  bases : List String
  members : List Member
  deriving Inhabited

end SolidityModel
