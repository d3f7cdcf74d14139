import SolidityModel.Analysis

/-!
# The report of an analysis

A report for readers: the contracts with what they declare and inherit, the
writes to mappings, the constants, the diamonds and the problems.  A part without
entries is left out, except for the list of contracts.
-/

namespace SolidityModel

namespace Report

/-- A list of words on one line. -/
def joined (words : List String) : String :=
  String.intercalate ", " words

/-- The line of a part with its entries, none if there are no entries. -/
def labelled (label : String) (entries : List String) : List String :=
  if entries.isEmpty then [] else ["  " ++ label ++ ": " ++ joined entries]

/-- The heading of a contract. -/
def heading (bases : List String) (detail : ContractDetail) : String :=
  detail.kind.keyword ++ " " ++ detail.name ++
    if bases.isEmpty then "" else " is " ++ joined bases

/-- The lines of the state variables of a contract. -/
def variableLines (entries : List Variable) : List String :=
  if entries.isEmpty then []
  else "  State variables:" ::
    entries.map fun entry => "    " ++ entry.name ++ ": " ++ entry.type.display

/-- The lines of a contract. -/
def contractLines (tree : InheritanceTree) (detail : ContractDetail) : List String :=
  [heading (tree.basesOf detail.name) detail]
    ++ labelled "Linearization" detail.parents
    ++ (detail.errors.map fun error => "  Error: " ++ error.message)
    ++ labelled "Functions" detail.functionNames.toList
    ++ variableLines detail.stateVariables
    ++ labelled "Mappings" (detail.mappings.map fun mapping =>
      mapping.name ++ " (" ++ mapping.keyType ++ ")")
    ++ labelled "Mapping writers" detail.mappingWriters.toList

/-- The line that opens a part and counts its entries. -/
def counted (title : String) (count : Nat) : String :=
  "=== " ++ title ++ " (" ++ toString count ++ " total) ==="

/-- A part that is left out without entries, and ends with an empty line. -/
def countedPart (title : String) (lines : List String) : List String :=
  if lines.isEmpty then [] else counted title lines.length :: lines ++ [""]

/-- The line of a write to a mapping. -/
def writeLine (write : MappingWrite) : String :=
  "  " ++ write.contract ++ "." ++ write.function ++ " writes " ++ write.mapping ++ " at ["
    ++ joined write.keyPath ++ "]"

/-- The line of a constant. -/
def constantLine (constant : ConstantVar) : String :=
  "  " ++ constant.contract ++ "." ++ constant.name ++ ": " ++ constant.declaredType ++ " = "
    ++ constant.value

/-- The lines of a diamond report. -/
def diamondLines (report : DiamondReport) : List String :=
  ["=== Diamonds for " ++ report.root ++ " ==="]
    ++ (if report.isEmpty then ["  none"] else [])
    ++ (report.counts.entries.map fun (ancestor, count) =>
      "  " ++ ancestor ++ " reached through " ++ toString count ++ " paths")
    ++ [""]

/-- The lines of a report. -/
def lines (analysis : UnitAnalysis) : List String :=
  ["=== Solsema Analysis Report ==="]
    ++ (analysis.compilerVersion?.map fun version => "Compiler: " ++ version).toList
    ++ [""]
    ++ [counted "Contracts" analysis.contracts.size]
    ++ analysis.contracts.values.flatMap (contractLines analysis.inheritance)
    ++ [""]
    ++ countedPart "Mapping Writes" (analysis.mappingWrites.map writeLine)
    ++ countedPart "Constants" (analysis.constants.map constantLine)
    ++ (analysis.diamonds?.map diamondLines).getD []
    ++ (analysis.errors.map fun error => "Error: " ++ error.message)
    ++ ["=== End Report ==="]

end Report

/-- The report of an analysis, each of its lines with a line break. -/
def UnitAnalysis.report (analysis : UnitAnalysis) : String :=
  String.join ((Report.lines analysis).map fun line => line ++ "\n")

end SolidityModel
