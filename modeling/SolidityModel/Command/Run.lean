import SolidityModel.Analysis.Encoding
import SolidityModel.Analysis.Report
import SolidityModel.Command.Arguments
import SolidityModel.Command.Environment
import SolidityModel.Json.Parser
import SolidityModel.Json.Printer

/-!
# Runs of the program

A run reads its environment file, its arguments, its configuration and its syntax
tree, in this order, and the first step that fails decides the outcome.  Files and
variables are read through functions that the caller gives, so that a run is the
same over any files and any environment.
-/

namespace SolidityModel

namespace Command

/-- Why a run fails after its arguments are understood. -/
inductive Failure where
  | unreadableConfig (path : String)
  | invalidConfig (path : String) (error : ConfigError)
  | unreadableTree (path : String)
  | invalidJson (path : String)
  | noAnalysis (path : String) (error : TreeError)
  deriving DecidableEq

/-- The wording of a failure. -/
def Failure.message : Failure → String
  | unreadableConfig path => "Failed to read config file: " ++ path
  | invalidConfig path _ => "Invalid config file: " ++ path
  | unreadableTree path => "Failed to read syntax tree: " ++ path
  | invalidJson path => "Invalid JSON in " ++ path
  | noAnalysis path _ => "Failed to analyze " ++ path

/-- How a run ends. -/
inductive Outcome where
  /-- The text for standard output. -/
  | success (output : String)
  | failure (cause : Failure)
  | usage (error : UsageError)
  deriving DecidableEq

namespace Outcome

/-- The exit code of an outcome. -/
def exitCode : Outcome → Nat
  | success _ => 0
  | failure _ => 1
  | usage _ => 2

/-- The text for standard output. -/
def output : Outcome → String
  | success output => output
  | _ => ""

/-- The message of a failure. -/
def message? : Outcome → Option String
  | failure cause => some cause.message
  | _ => none

end Outcome

/-- The name of the environment file. -/
def environmentFile : String := ".env"

/-- The variable with the path of a configuration file. -/
def configVariable : String := "SOLSEMA_CONFIG"

/-- The answer to a question for the version. -/
def versionText : String := "solsema 0.0.2\n"

/-- The answer to a call for help. -/
def helpText : String :=
  "Solsema - semantic model extraction for Solidity syntax trees\n\n"
    ++ "Usage: solsema [OPTIONS] <AST>\n\n"
    ++ "Options:\n"
    ++ "      --contract <CONTRACT>\n"
    ++ "      --config <CONFIG>\n"
    ++ "      --mapping-scope <global|per-contract>\n"
    ++ "      --parallel\n"
    ++ "      --format <json|pretty>\n"
    ++ "      --log-file\n"
    ++ "  -h, --help\n"
    ++ "  -V, --version\n"

/-- How deep arrays and objects of a syntax tree may nest. -/
def treeDepth : Nat := 127

/-- A configuration with the settings of a command line over it. -/
def override (arguments : Arguments) (config : Config) : Config where
  scope := arguments.scope?.getD config.scope
  parallel := arguments.parallel || config.parallel
  focus? := arguments.contract?.or config.focus?

/-- The output of an analysis in a format. -/
def render (analysis : UnitAnalysis) : Format → String
  | .json => analysis.toJson.indented ++ "\n"
  | .pretty => analysis.report

/-- The configuration of a file, which may not be readable. -/
def configOfFile (path : String) : (content? : Option String) → Except Failure Config
  | none => .error (.unreadableConfig path)
  | some content =>
      match Config.ofToml content with
      | .ok config => .ok config
      | .error error => .error (.invalidConfig path error)

/-- The analysis of a file, which may not be readable. -/
def analysisOfFile (config : Config) (path : String) :
    (content? : Option String) → Except Failure UnitAnalysis
  | none => .error (.unreadableTree path)
  | some content =>
      match Json.parse? treeDepth content with
      | none => .error (.invalidJson path)
      | some tree =>
          match analyzeTree config tree with
          | .ok analysis => .ok analysis
          | .error error => .error (.noAnalysis path error)

section

variable {m : Type → Type} [Monad m]

/-- The configuration of a command line. -/
def loadConfig (readFile? : String → m (Option String)) (arguments : Arguments) :
    m (Except Failure Config) := do
  match arguments.configPath? with
  | none => return .ok (override arguments Config.default)
  | some path =>
      let content? ← readFile? path
      return (configOfFile path content?).map (override arguments)

/-- Carry out the analysis that a command line asks for. -/
def runAnalysis (readFile? : String → m (Option String)) (arguments : Arguments) :
    m Outcome := do
  let path := arguments.path?.getD ""
  match ← loadConfig readFile? arguments with
  | .error cause => return .failure cause
  | .ok config =>
      let content? ← readFile? path
      match analysisOfFile config path content? with
      | .error cause => return .failure cause
      | .ok analysis => return .success (render analysis (arguments.format?.getD .json))

/-- Run the program with arguments, over the files that `readFile?` reads and the
environment whose variables `getVariable?` tells. -/
def run (readFile? getVariable? : String → m (Option String)) (arguments : List String) :
    m Outcome := do
  let set ← match ← readFile? environmentFile with
    | some text => EnvFile.load getVariable? text
    | none => pure NameMap.empty
  let config? ← EnvFile.lookup getVariable? set configVariable
  match parseArguments config? arguments with
  | .error error => return .usage error
  | .ok .version => return .success versionText
  | .ok .help => return .success helpText
  | .ok (.analysis arguments) => runAnalysis readFile? arguments

end

end Command

end SolidityModel
