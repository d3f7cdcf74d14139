/-!
# Type names

The type of a declaration as it is written, reduced to its shape and its names.
-/

namespace SolidityModel

/-- The length of a fixed-size array dimension. -/
inductive ArrayLength where
  /-- A number, as written. -/
  | literal (text : String)
  /-- The dotted path of a named constant. -/
  | constant (path : String)
  deriving DecidableEq, Inhabited

/-- The length as it stands between brackets. -/
def ArrayLength.text : ArrayLength → String
  | literal text => text
  | constant path => path

/-- A type as written. -/
inductive TypeName where
  /-- A built-in value type. -/
  | elementary (name : String)
  /-- A reference by its path; `knownEnum` tells that the tree itself says that
  an enum is meant. -/
  | userDefined (path : String) (knownEnum : Bool)
  | mapping (key value : TypeName)
  /-- One array dimension around `base`, so the outermost node holds the last
  dimension written.  A dynamic dimension has no length. -/
  | array (base : TypeName) (length : Option ArrayLength)
  | function
  /-- A node that is none of the above, by its kind. -/
  | unknown (kind : String)
  deriving DecidableEq, Inhabited

/-- One array dimension as written. -/
def dimensionText : Option ArrayLength → String
  | some length => "[" ++ length.text ++ "]"
  | none => "[]"

namespace TypeName

/-- The type as it is shown. -/
def display : TypeName → String
  | elementary name => name
  | userDefined path _ => path
  | mapping key value => "mapping(" ++ key.display ++ " => " ++ value.display ++ ")"
  | array base length => base.display ++ dimensionText length
  | function => "function"
  | unknown kind => "<" ++ kind ++ ">"

/-- The name by which a type is written; mappings, arrays and function types have
none. -/
def name? : TypeName → Option String
  | elementary name => some name
  | userDefined path _ => some path
  | _ => none

end TypeName

end SolidityModel
