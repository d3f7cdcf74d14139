import SolidityModel.Mapping.Scope

/-!
# Command-line arguments

The arguments are read from left to right.  An option takes its value from the
same argument, after an equals sign, or from the next one, which then must not
look like an option.  Every option may be given once, and so may the path of the
syntax tree.  After `--` every argument is a path.
-/

namespace SolidityModel

namespace Command

/-- The formats of the output. -/
inductive Format where
  | json
  | pretty
  deriving DecidableEq, Inhabited

/-- The format of a word. -/
def Format.ofWord? (word : String) : Option Format :=
  if word = "json" then some .json
  else if word = "pretty" then some .pretty
  else none

/-- What is wrong with a command line. -/
inductive UsageError where
  | unknownOption (argument : String)
  | repeatedOption (name : String)
  | missingValue (name : String)
  | unwantedValue (name : String)
  | invalidValue (name value : String)
  | unexpectedPath (path : String)
  | missingPath
  deriving DecidableEq

/-- The settings that a command line gives. -/
structure Arguments where
  path? : Option String
  contract? : Option String
  configPath? : Option String
  scope? : Option MappingScope
  parallel : Bool
  format? : Option Format
  logFile : Bool
  deriving DecidableEq, Inhabited

/-- No settings. -/
def Arguments.empty : Arguments :=
  ⟨none, none, none, none, false, none, false⟩

/-- What a command line asks for. -/
inductive Request where
  | version
  | help
  | analysis (arguments : Arguments)
  deriving DecidableEq

/-- The options that take a value. -/
inductive ValueOption where
  | contract
  | config
  | scope
  | format
  deriving DecidableEq

namespace ValueOption

/-- The name of an option. -/
def name : ValueOption → String
  | contract => "contract"
  | config => "config"
  | scope => "mapping-scope"
  | format => "format"

/-- Whether an option has been given. -/
def isGiven (arguments : Arguments) : ValueOption → Bool
  | contract => arguments.contract?.isSome
  | config => arguments.configPath?.isSome
  | scope => arguments.scope?.isSome
  | format => arguments.format?.isSome

/-- Set an option, if its value has the form that it needs. -/
def set? (value : String) (arguments : Arguments) : ValueOption → Option Arguments
  | contract => some { arguments with contract? := some value }
  | config => if value.isEmpty then none else some { arguments with configPath? := some value }
  | scope =>
      (MappingScope.ofLabel? value).map fun scope => { arguments with scope? := some scope }
  | format =>
      (Format.ofWord? value).map fun format => { arguments with format? := some format }

/-- Give an option a value. -/
def give (option : ValueOption) (value : String) (arguments : Arguments) :
    Except UsageError Arguments :=
  if option.isGiven arguments then .error (.repeatedOption option.name)
  else
    match option.set? value arguments with
    | some arguments => .ok arguments
    | none => .error (.invalidValue option.name value)

end ValueOption

/-- What an option of a name does. -/
inductive OptionAction where
  | takeValue (option : ValueOption)
  | parallel
  | logFile
  | version
  | help
  deriving DecidableEq

/-- The option of a name. -/
def OptionAction.ofName? (name : String) : Option OptionAction :=
  if name = "contract" then some (.takeValue .contract)
  else if name = "config" then some (.takeValue .config)
  else if name = "mapping-scope" then some (.takeValue .scope)
  else if name = "format" then some (.takeValue .format)
  else if name = "parallel" then some .parallel
  else if name = "log-file" then some .logFile
  else if name = "version" then some .version
  else if name = "help" then some .help
  else none

/-- The forms of an argument. -/
inductive Word where
  /-- The mark after which every argument is a path. -/
  | endOfOptions
  /-- An option by its name, with the value after an equals sign. -/
  | longOption (name : String) (value? : Option String)
  /-- An option by its first letter. -/
  | shortOption (letter : Char)
  | plain (text : String)
  deriving DecidableEq

/-- The form of an argument. -/
def Word.ofArgument (argument : String) : Word :=
  match argument.toList with
  | ['-', '-'] => .endOfOptions
  | '-' :: '-' :: chars =>
      let name := String.ofList (chars.takeWhile (· ≠ '='))
      match chars.dropWhile (· ≠ '=') with
      | [] => .longOption name none
      | _ :: value => .longOption name (some (String.ofList value))
  | ['-'] => .plain argument
  | '-' :: letter :: _ => .shortOption letter
  | _ => .plain argument

/-- Take an argument as the path of the syntax tree. -/
def givePath (path : String) (arguments : Arguments) : Except UsageError Arguments :=
  if arguments.path?.isSome then .error (.unexpectedPath path)
  else if path.isEmpty then .error (.invalidValue "path" path)
  else .ok { arguments with path? := some path }

/-- Take all arguments as paths. -/
def readPaths (arguments : Arguments) : List String → Except UsageError Request
  | [] => .ok (.analysis arguments)
  | path :: rest => do
      let arguments ← givePath path arguments
      readPaths arguments rest

/-- Read the arguments after those that gave some settings. -/
def readArguments (arguments : Arguments) : List String → Except UsageError Request
  | [] => .ok (.analysis arguments)
  | argument :: rest =>
      match Word.ofArgument argument with
      | .endOfOptions => readPaths arguments rest
      | .plain path => do
          let arguments ← givePath path arguments
          readArguments arguments rest
      | .shortOption letter =>
          if letter = 'V' then .ok .version
          else if letter = 'h' then .ok .help
          else .error (.unknownOption argument)
      | .longOption name value? =>
          match OptionAction.ofName? name, value? with
          | none, _ => .error (.unknownOption argument)
          | some (.takeValue option), some value => do
              let arguments ← option.give value arguments
              readArguments arguments rest
          | some (.takeValue option), none =>
              match rest with
              | [] => .error (.missingValue name)
              | value :: rest =>
                  match Word.ofArgument value with
                  | .plain _ => do
                      let arguments ← option.give value arguments
                      readArguments arguments rest
                  | _ => .error (.missingValue name)
          | some _, some _ => .error (.unwantedValue name)
          | some .parallel, none =>
              if arguments.parallel then .error (.repeatedOption name)
              else readArguments { arguments with parallel := true } rest
          | some .logFile, none =>
              if arguments.logFile then .error (.repeatedOption name)
              else readArguments { arguments with logFile := true } rest
          | some .version, none => .ok .version
          | some .help, none => .ok .help

/-- Fill in what the command line leaves to the environment, and check that nothing
is missing. -/
def complete (environmentConfig? : Option String) (arguments : Arguments) :
    Except UsageError Arguments :=
  match arguments.path? with
  | none => .error .missingPath
  | some _ =>
      match arguments.configPath?, environmentConfig? with
      | none, some path => ValueOption.config.give path arguments
      | _, _ => .ok arguments

/-- What a command line asks for, with the configuration file of the environment
where it names none. -/
def parseArguments (environmentConfig? : Option String) (arguments : List String) :
    Except UsageError Request := do
  match ← readArguments Arguments.empty arguments with
  | .analysis arguments => return .analysis (← complete environmentConfig? arguments)
  | request => return request

end Command

end SolidityModel
