import SolidityModel.Main
import SolidityModel.Proofs.Contract.Inherited
import SolidityModel.Proofs.Inheritance.Linearization
import SolidityModel.Proofs.Contract.Entry
import SolidityModel.Proofs.Contract.BaseFirst
import SolidityModel.Proofs.Mapping.Targets
import SolidityModel.Proofs.Mapping.Visibility
import SolidityModel.Proofs.Analysis.Survey
import SolidityModel.Proofs.Analysis.Isolation
import SolidityModel.Proofs.Analysis.Continuation
import SolidityModel.Proofs.Analysis.Scopes
import SolidityModel.Proofs.Analysis.Reordering
import SolidityModel.Proofs.Tree.Body
import SolidityModel.Proofs.Tree.Types
import SolidityModel.Proofs.Tree.RoundTrip
import SolidityModel.Proofs.Tree.Location
import SolidityModel.Proofs.Tree.RestyledUnit
import SolidityModel.Proofs.Inheritance.Cycle
import SolidityModel.Proofs.Inheritance.Preorder
import SolidityModel.Proofs.Inheritance.Paths
import SolidityModel.Proofs.Inheritance.InPlace
import SolidityModel.Proofs.Contract.References
import SolidityModel.Proofs.Contract.Redefinition
import SolidityModel.Proofs.Types.Shape
import SolidityModel.Proofs.Version.Comparator
import SolidityModel.Proofs.Version.Pragma
import SolidityModel.Proofs.Contract.Placement
import SolidityModel.Proofs.Contract.Lookup
import SolidityModel.Proofs.Contract.Constants
import SolidityModel.Proofs.Types.SelfReference
import SolidityModel.Proofs.Toml.Document
