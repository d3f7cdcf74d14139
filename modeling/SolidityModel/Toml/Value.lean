/-!
# TOML values
-/

namespace SolidityModel

namespace Toml

/-- A TOML value.  Floating-point numbers and dates keep the text they were written
with. -/
inductive Value where
  | string (text : String)
  | integer (value : Int)
  | float (text : String)
  | boolean (value : Bool)
  | dateTime (text : String)
  | array (items : List Value)
  | table (fields : List (String × Value))
  deriving Inhabited

namespace Value

/-- The value of the first field of a name. -/
def fieldIn? (name : String) : List (String × Value) → Option Value
  | [] => none
  | (other, value) :: rest => if name = other then some value else fieldIn? name rest

/-- Whether a value is an array or a table without entries. -/
def isEmptyCollection : Value → Bool
  | array items => items.isEmpty
  | table fields => fields.isEmpty
  | _ => false

end Value

end Toml

end SolidityModel
