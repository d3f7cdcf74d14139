import SolidityModel.Proofs.Types.Reference

/-!
# The shape of a resolved type

A type name nests one array node for every dimension, the last dimension outermost,
while a resolved type lists the dimensions of a whole run of arrays.  Mappings and
such runs can alternate to any depth.  Resolution keeps this shape and changes the
text only at the end of the spine (`TypeRegistry.resolve?_keepsShape`).
-/

namespace SolidityModel

namespace TypeName

/-- The lengths of the arrays that a type begins with, in the order in which they
are written.  Other types begin with none. -/
def dimensions : TypeName → List (Option ArrayLength)
  | .array base length => base.dimensions ++ [length]
  | _ => []

/-- A type with array dimensions behind it. -/
def withDimensions (element : TypeName) (lengths : List (Option ArrayLength)) : TypeName :=
  lengths.foldl .array element

theorem withDimensions_concat (element : TypeName) (lengths : List (Option ArrayLength))
    (length : Option ArrayLength) :
    element.withDimensions (lengths ++ [length]) =
      .array (element.withDimensions lengths) length := by
  simp [withDimensions]

theorem dimensions_withDimensions (element : TypeName) (lengths : List (Option ArrayLength)) :
    (element.withDimensions lengths).dimensions = element.dimensions ++ lengths := by
  induction lengths using List.reverseRecOn with
  | nil => simp [withDimensions]
  | append_singleton lengths length ih =>
      rw [withDimensions_concat, dimensions, ih, List.append_assoc]

theorem dimensions_eq_nil {type : TypeName}
    (notArray : ∀ base length, type ≠ .array base length) :
    type.dimensions = [] := by
  cases type with
  | array base length => exact absurd rfl (notArray base length)
  | elementary | userDefined | mapping | function | unknown => rfl

theorem display_withDimensions (element : TypeName) (lengths : List (Option ArrayLength)) :
    (element.withDimensions lengths).display =
      element.display ++ String.join (lengths.map dimensionText) := by
  induction lengths using List.reverseRecOn with
  | nil => simp [withDimensions]
  | append_singleton lengths length ih =>
      rw [withDimensions_concat, display, ih]
      simp [String.append_assoc]

/-- Change what stands at the end of the spine.  Key types are not on it. -/
def mapSpineEnd (change : TypeName → TypeName) : TypeName → TypeName
  | .mapping key value => .mapping key (value.mapSpineEnd change)
  | .array base length => .array (base.mapSpineEnd change) length
  | type => change type

theorem mapSpineEnd_withDimensions (change : TypeName → TypeName) (element : TypeName)
    (lengths : List (Option ArrayLength)) :
    (element.withDimensions lengths).mapSpineEnd change =
      (element.mapSpineEnd change).withDimensions lengths := by
  induction lengths using List.reverseRecOn with
  | nil => rfl
  | append_singleton lengths length ih =>
      rw [withDimensions_concat, withDimensions_concat, mapSpineEnd, ih]

end TypeName

namespace TypeRegistry

/-- Whether a reference is to an enum: the tree says so, or the last definition of
its unqualified name is one. -/
def MeansEnum (registry : TypeRegistry) (path : String) (knownEnum : Bool) : Prop :=
  knownEnum = true ∨ registry.types.get? (lastSegment path) = some .enum

instance (registry : TypeRegistry) (path : String) (knownEnum : Bool) :
    Decidable (registry.MeansEnum path knownEnum) :=
  inferInstanceAs (Decidable (_ ∨ _))

/-- A type resolves to one of the same shape.  Every run of arrays, as long as it
can be, becomes one array with the dimensions of the whole run. -/
inductive KeepsShape (registry : TypeRegistry) : TypeName → ResolvedType → Prop where
  | elementary (name : String) : KeepsShape registry (.elementary name) (.elementary name)
  | enum {path : String} {knownEnum : Bool} (means : registry.MeansEnum path knownEnum) :
      KeepsShape registry (.userDefined path knownEnum) (.enum (lastSegment path))
  | userDefined {path : String} {knownEnum : Bool} (other : ¬registry.MeansEnum path knownEnum) :
      KeepsShape registry (.userDefined path knownEnum)
        (.userDefined (lastSegment path) (registry.membersOf path))
  | mapping (key : TypeName) {value : TypeName} {resolved : ResolvedType}
      (keeps : KeepsShape registry value resolved) :
      KeepsShape registry (.mapping key value) (.mapping key.display resolved)
  | array {element : TypeName} {resolved : ResolvedType} {lengths : List (Option ArrayLength)}
      (nonempty : lengths ≠ []) (notArray : ∀ base length, element ≠ .array base length)
      (notResolvedArray : ∀ inner dimensions, resolved ≠ .array inner dimensions)
      (keeps : KeepsShape registry element resolved) :
      KeepsShape registry (element.withDimensions lengths) (.array resolved lengths)

/-- A reference in its unqualified form, marked if it is to an enum. -/
def unqualified (registry : TypeRegistry) : TypeName → TypeName
  | .userDefined path knownEnum =>
      .userDefined ((if registry.MeansEnum path knownEnum then "enum " else "") ++ lastSegment path)
        knownEnum
  | type => type

variable {registry : TypeRegistry} {type : TypeName} {resolved : ResolvedType}

theorem meansEnum_iff {path : String} {knownEnum : Bool} :
    (knownEnum || registry.isEnum path) = true ↔ registry.MeansEnum path knownEnum := by
  rw [Bool.or_eq_true, isEnum, decide_eq_true_iff, get?, MeansEnum]

theorem keepsShape_resolveReference (registry : TypeRegistry) (path : String) (knownEnum : Bool) :
    registry.KeepsShape (.userDefined path knownEnum)
      (registry.resolveReference path knownEnum) := by
  rw [resolveReference]
  split
  next means => exact .enum (meansEnum_iff.mp means)
  next other => exact .userDefined fun means => other (meansEnum_iff.mpr means)

namespace KeepsShape

/-- The first dimension behind a type that is no array. -/
theorem firstDimension (notArray : ∀ base length, type ≠ .array base length)
    (notResolvedArray : ∀ inner dimensions, resolved ≠ .array inner dimensions)
    (keeps : registry.KeepsShape type resolved) (length : Option ArrayLength) :
    registry.KeepsShape (.array type length) (.array resolved [length]) := by
  change registry.KeepsShape (type.withDimensions [length]) (.array resolved [length])
  exact .array (by simp) notArray notResolvedArray keeps

/-- One more dimension joins the run of arrays that it is written behind. -/
theorem addDimension (keeps : registry.KeepsShape type resolved) (length : Option ArrayLength) :
    registry.KeepsShape (.array type length) (resolved.addDimension length) := by
  cases keeps with
  | elementary name => exact firstDimension (by simp) (by simp) (.elementary name) length
  | enum means => exact firstDimension (by simp) (by simp) (.enum means) length
  | userDefined other => exact firstDimension (by simp) (by simp) (.userDefined other) length
  | mapping key keeps => exact firstDimension (by simp) (by simp) (.mapping key keeps) length
  | array nonempty notArray notResolvedArray keeps =>
      rw [← TypeName.withDimensions_concat]
      exact .array (by simp) notArray notResolvedArray keeps

/-- A type is shown as it was written, but for the reference at its end. -/
theorem display_eq (keeps : registry.KeepsShape type resolved) :
    resolved.display = (type.mapSpineEnd registry.unqualified).display := by
  induction keeps with
  | elementary name => rfl
  | enum means => simp [ResolvedType.display, TypeName.mapSpineEnd, unqualified,
      TypeName.display, means]
  | userDefined other => simp [ResolvedType.display, TypeName.mapSpineEnd, unqualified,
      TypeName.display, other]
  | mapping key _ ih => rw [ResolvedType.display, ih, TypeName.mapSpineEnd, TypeName.display]
  | array _ _ _ _ ih =>
      rw [ResolvedType.display, ih, TypeName.mapSpineEnd_withDimensions,
        TypeName.display_withDimensions]

/-- An array is static if no dimension of its first run is dynamic. -/
theorem isStatic_iff (keeps : registry.KeepsShape type resolved) :
    resolved.isStatic = true ↔
      type.dimensions ≠ [] ∧ ∀ length ∈ type.dimensions, length.isSome = true := by
  cases keeps with
  | elementary | enum | userDefined | mapping => simp [ResolvedType.isStatic, TypeName.dimensions]
  | array nonempty notArray _ _ =>
      have noneBefore := TypeName.dimensions_eq_nil notArray
      rw [TypeName.dimensions_withDimensions, noneBefore, List.nil_append, ResolvedType.isStatic,
        List.all_eq_true]
      exact (and_iff_right nonempty).symm

end KeepsShape

/-- A type has no resolution where its spine ends in a function type or in
something unknown. -/
theorem resolve?_eq_none_iff :
    registry.resolve? type = none ↔
      type.spineEnd = .function ∨ ∃ kind, type.spineEnd = .unknown kind := by
  induction type with
  | elementary | userDefined | function | unknown => simp [resolve?, TypeName.spineEnd]
  | mapping key value _ ih => rw [resolve?, Option.map_eq_none_iff, ih, TypeName.spineEnd]
  | array base length ih => rw [resolve?, Option.map_eq_none_iff, ih, TypeName.spineEnd]

theorem keepsShape_of_resolve? (resolves : registry.resolve? type = some resolved) :
    registry.KeepsShape type resolved := by
  induction type generalizing resolved with
  | elementary name =>
      cases resolves
      exact .elementary name
  | userDefined path knownEnum =>
      cases resolves
      exact keepsShape_resolveReference registry path knownEnum
  | mapping key value _ ih =>
      obtain ⟨inner, innerResolves, rfl⟩ := Option.map_eq_some_iff.mp resolves
      exact .mapping key (ih innerResolves)
  | array base length ih =>
      obtain ⟨inner, innerResolves, rfl⟩ := Option.map_eq_some_iff.mp resolves
      exact (ih innerResolves).addDimension length
  | function | unknown => cases resolves

/-- Only what ends in a function type or in something unknown has no resolution.
Any other type keeps its shape and its text, in which only the reference at the end
is unqualified, and it is static if it begins with arrays that all have a length. -/
theorem resolve?_keepsShape (registry : TypeRegistry) (type : TypeName) :
    (registry.resolve? type = none ↔
      type.spineEnd = .function ∨ ∃ kind, type.spineEnd = .unknown kind) ∧
    ∀ resolved, registry.resolve? type = some resolved →
      registry.KeepsShape type resolved ∧
      resolved.display = (type.mapSpineEnd registry.unqualified).display ∧
      (resolved.isStatic = true ↔
        type.dimensions ≠ [] ∧ ∀ length ∈ type.dimensions, length.isSome = true) := by
  constructor
  · exact resolve?_eq_none_iff
  · intro resolved resolves
    have keeps := keepsShape_of_resolve? resolves
    exact ⟨keeps, keeps.display_eq, keeps.isStatic_iff⟩

/-- A unit that has defined the states of a ballot. -/
def ballotRegistry : TypeRegistry := empty.registerEnum ⟨"Ballot.State", ["Open", "Closed"]⟩

/-- Three mappings to rows of two states each, as many as needed. -/
def stateTables : TypeName :=
  .array (.mapping (.userDefined "Ballot.Voter" false)
    (.array (.array (.userDefined "Ballot.State" false) (some (.literal "2"))) none))
    (some (.literal "3"))

theorem stateTables_keepsShape :
    let resolved : ResolvedType :=
      .array (.mapping "Ballot.Voter" (.array (.enum "State") [some (.literal "2"), none]))
        [some (.literal "3")]
    ballotRegistry.resolve? stateTables = some resolved ∧
      ballotRegistry.KeepsShape stateTables resolved ∧
      resolved.display = "mapping(Ballot.Voter => enum State[2][])[3]" ∧
      resolved.isStatic = true := by
  intro resolved
  have resolves : ballotRegistry.resolve? stateTables = some resolved := by decide +kernel
  have result := (resolve?_keepsShape ballotRegistry stateTables).2 resolved resolves
  refine ⟨resolves, result.1, ?_, result.2.2.mpr ?_⟩
  · rw [result.2.1]
    decide +kernel
  · decide +kernel

end TypeRegistry

end SolidityModel
