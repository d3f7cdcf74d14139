/-!
# Which mappings a contract can see
-/

namespace SolidityModel

/-- The rule by which a mapping is visible to a contract. -/
inductive MappingScope where
  /-- Every mapping of the contract itself and of the contracts written before it
  is visible. -/
  | global
  /-- The mappings of the contract itself and of its ancestors are visible. -/
  | perContract
  deriving DecidableEq, Inhabited

namespace MappingScope

/-- The scope as it is shown and written on a command line. -/
def label : MappingScope → String
  | global => "global"
  | perContract => "per-contract"

/-- The scope as it is written in files. -/
def key : MappingScope → String
  | global => "global"
  | perContract => "per_contract"

/-- The scope of a label in exactly its spelling. -/
def ofLabel? (text : String) : Option MappingScope :=
  if text = global.label then some global
  else if text = perContract.label then some perContract
  else none

/-- The scope of a key in exactly its spelling. -/
def ofKey? (text : String) : Option MappingScope :=
  if text = global.key then some global
  else if text = perContract.key then some perContract
  else none

/-- A text that names no scope, with its letters in lower case and its underscores
as hyphens. -/
structure Unknown where
  text : String
  deriving DecidableEq

/-- The wording of the error. -/
def Unknown.message (unknown : Unknown) : String :=
  "unknown mapping scope '" ++ unknown.text ++ "'"

/-- The label that a text spells with any letter case and with hyphens or
underscores. -/
def normalize (text : String) : String :=
  String.ofList (text.toList.map fun char => if char = '_' then '-' else char.toLower)

/-- The scope that a text names. -/
def ofText (text : String) : Except Unknown MappingScope :=
  match ofLabel? (normalize text) with
  | some scope => .ok scope
  | none => .error ⟨normalize text⟩

end MappingScope

end SolidityModel
