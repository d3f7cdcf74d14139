import SolidityModel.Syntax.TypeName

/-!
# Resolved types

A resolved type carries the members of the structs it mentions, as they were
known where it was resolved.  Two resolved types can be compared
(`ResolvedType.same_eq_true_iff`), which is what tells inherited variables
apart.
-/

namespace SolidityModel

/-- A name with its type. -/
structure Binding (α : Type) where
  name : String
  type : α
  deriving DecidableEq, Inhabited

/-- A type whose references are resolved. -/
inductive ResolvedType where
  | elementary (name : String)
  | enum (name : String)
  /-- A struct or any other definition of a name, with its members; a definition
  that is not known has none. -/
  | userDefined (name : String) (members : List (Binding ResolvedType))
  /-- A mapping; of its key type only the text is kept. -/
  | mapping (keyType : String) (value : ResolvedType)
  /-- An array with its dimensions in the order in which they are written, each
  with its length unless it is dynamic. -/
  | array (element : ResolvedType) (dimensions : List (Option ArrayLength))
  deriving Inhabited

namespace ResolvedType

/-- The word for the form of a type. -/
def tag : ResolvedType → String
  | elementary _ => "elementary"
  | enum _ => "enum"
  | userDefined _ _ => "user_defined"
  | mapping _ _ => "mapping"
  | array _ _ => "array"

/-- The type of the keys of a mapping, as text. -/
def keyType? : ResolvedType → Option String
  | mapping keyType _ => some keyType
  | _ => none

/-- Whether a type is a mapping. -/
def isMapping (type : ResolvedType) : Bool :=
  type.keyType?.isSome

/-- A type that is a mapping from some keys to some values. -/
def IsMapping (type : ResolvedType) : Prop :=
  ∃ keyType value, type = .mapping keyType value

theorem keyType?_eq_some_iff {type : ResolvedType} {keyType : String} :
    type.keyType? = some keyType ↔ ∃ value, type = .mapping keyType value := by
  cases type <;> simp [keyType?]

theorem isMapping_eq_true_iff {type : ResolvedType} :
    type.isMapping = true ↔ type.IsMapping := by
  simp only [isMapping, Option.isSome_iff_exists, keyType?_eq_some_iff, IsMapping]

instance : DecidablePred IsMapping := fun _ =>
  decidable_of_iff _ isMapping_eq_true_iff

/-- Whether a type is an array whose dimensions all have a length. -/
def isStatic : ResolvedType → Bool
  | array _ dimensions => dimensions.all Option.isSome
  | _ => false

/-- The type as it is shown. -/
def display : ResolvedType → String
  | elementary name => name
  | enum name => "enum " ++ name
  | userDefined name _ => name
  | mapping keyType value => "mapping(" ++ keyType ++ " => " ++ value.display ++ ")"
  | array element dimensions => element.display ++ String.join (dimensions.map dimensionText)

mutual

/-- Whether two types are the same. -/
def same : ResolvedType → ResolvedType → Bool
  | elementary left, elementary right => left = right
  | enum left, enum right => left = right
  | userDefined left leftMembers, userDefined right rightMembers =>
      left = right && sameMembers leftMembers rightMembers
  | mapping leftKey left, mapping rightKey right => leftKey = rightKey && same left right
  | array left leftDimensions, array right rightDimensions =>
      leftDimensions = rightDimensions && same left right
  | _, _ => false

/-- Whether two lists of members are the same. -/
def sameMembers : List (Binding ResolvedType) → List (Binding ResolvedType) → Bool
  | [], [] => true
  | ⟨leftName, left⟩ :: leftRest, ⟨rightName, right⟩ :: rightRest =>
      leftName = rightName && same left right && sameMembers leftRest rightRest
  | _, _ => false

end

mutual

theorem same_eq_true_iff : (left right : ResolvedType) →
    (same left right = true ↔ left = right)
  | elementary _, right => by cases right <;> simp [same]
  | enum _, right => by cases right <;> simp [same]
  | userDefined _ members, right => by
      cases right with
      | userDefined _ others => simp [same, sameMembers_eq_true_iff members others]
      | _ => simp [same]
  | mapping _ value, right => by
      cases right with
      | mapping _ other => simp [same, same_eq_true_iff value other]
      | _ => simp [same]
  | array element _, right => by
      cases right with
      | array other _ => simp [same, same_eq_true_iff element other, and_comm]
      | _ => simp [same]

theorem sameMembers_eq_true_iff : (left right : List (Binding ResolvedType)) →
    (sameMembers left right = true ↔ left = right)
  | [], right => by cases right <;> simp [sameMembers]
  | ⟨name, type⟩ :: rest, [] => by simp [sameMembers]
  | ⟨name, type⟩ :: rest, ⟨other, kept⟩ :: others => by
      simp [sameMembers, same_eq_true_iff type kept, sameMembers_eq_true_iff rest others]

end

instance : DecidableEq ResolvedType := fun left right =>
  decidable_of_iff _ (same_eq_true_iff left right)

end ResolvedType

/-- A state variable or struct member with its resolved type. -/
abbrev Variable := Binding ResolvedType

end SolidityModel
