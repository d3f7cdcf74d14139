import SolidityModel.Mapping.Scope
import SolidityModel.Toml.Parser
import SolidityModel.Toml.Printer

/-!
# Configuration of an analysis

A configuration is a TOML table, in which every setting may be left out and keys
without a meaning are ignored.
-/

namespace SolidityModel

/-- The settings of an analysis. -/
structure Config where
  /-- Which mappings a contract can see. -/
  scope : MappingScope
  /-- Whether contracts may be analyzed at the same time, which changes no
  result. -/
  parallel : Bool
  /-- The contract whose diamonds are reported; without it, the last one. -/
  focus? : Option String
  deriving DecidableEq, Inhabited

/-- Why a text holds no configuration. -/
inductive ConfigError where
  /-- The text is not TOML. -/
  | notToml
  /-- The value of a key has not the form that the setting needs. -/
  | mistyped (key : String)
  deriving DecidableEq

/-- The wording of an error, which does not tell the cause. -/
def ConfigError.message (_ : ConfigError) : String :=
  "Failed to parse analyzer config"

namespace Config

/-- The settings of an empty configuration. -/
def default : Config := ⟨.global, false, none⟩

/-- The key of the scope. -/
def scopeKey : String := "mapping_scope"

/-- The key of the setting for analyses at the same time. -/
def parallelKey : String := "parallel"

/-- The key of the contract whose diamonds are reported. -/
def focusKey : String := "focus_contract"

/-- The scope that a value gives: its key as a string, or as the only key of a
table, with nothing under it. -/
def scopeOf? : Toml.Value → Option MappingScope
  | .string text => MappingScope.ofKey? text
  | .table [(key, value)] => if value.isEmptyCollection then MappingScope.ofKey? key else none
  | _ => none

/-- The truth value that a value gives. -/
def boolOf? : Toml.Value → Option Bool
  | .boolean value => some value
  | _ => none

/-- The text that a value gives. -/
def textOf? : Toml.Value → Option String
  | .string text => some text
  | _ => none

/-- Read a setting, which keeps its default if its key is not there. -/
def setting {α : Type} (fields : List (String × Toml.Value)) (key : String) (missing : α)
    (read? : Toml.Value → Option α) : Except ConfigError α :=
  match Toml.Value.fieldIn? key fields with
  | none => .ok missing
  | some value =>
      match read? value with
      | some read => .ok read
      | none => .error (.mistyped key)

/-- The configuration of a table. -/
def ofFields (fields : List (String × Toml.Value)) : Except ConfigError Config := do
  let scope ← setting fields scopeKey default.scope scopeOf?
  let parallel ← setting fields parallelKey default.parallel boolOf?
  let focus? ← setting fields focusKey default.focus? fun value => (textOf? value).map some
  return { scope, parallel, focus? }

/-- The configuration that a text writes. -/
def ofToml (text : String) : Except ConfigError Config :=
  match Toml.parse? text with
  | none => .error .notToml
  | some fields => ofFields fields

/-- A line that sets a key. -/
def line (key value : String) : String :=
  key ++ " = " ++ value ++ "\n"

/-- The word for a truth value. -/
def boolWord : Bool → String
  | true => "true"
  | false => "false"

/-- The text of a configuration. -/
def toToml (config : Config) : String :=
  line scopeKey (Toml.writeString config.scope.key)
    ++ line parallelKey (boolWord config.parallel)
    ++ match config.focus? with
      | none => ""
      | some focus => line focusKey (Toml.writeString focus)

end Config

end SolidityModel
