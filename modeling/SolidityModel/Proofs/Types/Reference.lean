import Mathlib.Data.List.Induction
import SolidityModel.Types.Registry

/-!
# What a reference resolves to

A registry is filled one definition after the other, and a struct enters it with
members that are resolved already.  What a name stands for can be told without the
registry: look back for the last definition of the name, and resolve the members of
a struct with nothing but the definitions in front of it
(`TypeRegistry.get?_afterDefs`).  A reference below mappings and arrays keeps its
place when the type around it is resolved (`TypeRegistry.map_spineEnd_resolve?`).
-/

namespace SolidityModel

/-! ## The end of a spine -/

/-- What stands below the values of mappings and the bases of arrays.  Key types do
not count. -/
def TypeName.spineEnd : TypeName → TypeName
  | .mapping _ value => value.spineEnd
  | .array base _ => base.spineEnd
  | type => type

/-- What stands below the values of mappings and the elements of arrays. -/
def ResolvedType.spineEnd : ResolvedType → ResolvedType
  | .mapping _ value => value.spineEnd
  | .array element _ => element.spineEnd
  | type => type

@[simp] theorem ResolvedType.spineEnd_addDimension (length : Option ArrayLength)
    (type : ResolvedType) : (type.addDimension length).spineEnd = type.spineEnd := by
  cases type <;> rfl

namespace TypeRegistry

theorem spineEnd_resolveReference (registry : TypeRegistry) (path : String) (knownEnum : Bool) :
    (registry.resolveReference path knownEnum).spineEnd =
      registry.resolveReference path knownEnum := by
  rw [resolveReference]
  split <;> rfl

/-- The end of the spine of a type resolves by itself, whatever is built on it. -/
theorem map_spineEnd_resolve? (registry : TypeRegistry) (type : TypeName) :
    (registry.resolve? type).map ResolvedType.spineEnd = registry.resolve? type.spineEnd := by
  induction type with
  | elementary | function | unknown => rfl
  | userDefined path knownEnum =>
      simp only [TypeName.spineEnd, resolve?, Option.map_some, spineEnd_resolveReference]
  | mapping key value _ ih =>
      rw [TypeName.spineEnd, ← ih, resolve?, Option.map_map]
      rfl
  | array base length ih =>
      rw [TypeName.spineEnd, ← ih, resolve?, Option.map_map]
      congr 1
      funext type
      exact ResolvedType.spineEnd_addDimension length type

/-- A type that ends in a reference has a resolution, which ends in what the
reference resolves to. -/
theorem exists_resolve?_of_spineEnd (registry : TypeRegistry) {type : TypeName} {path : String}
    {knownEnum : Bool} (ends : type.spineEnd = .userDefined path knownEnum) :
    ∃ resolved, registry.resolve? type = some resolved ∧
      resolved.spineEnd = registry.resolveReference path knownEnum := by
  have spine := registry.map_spineEnd_resolve? type
  rw [ends, resolve?] at spine
  exact Option.map_eq_some_iff.mp spine

end TypeRegistry

/-! ## Definitions in their order -/

/-- The definition of a struct or an enum. -/
inductive TypeDef where
  | struct (definition : StructDef)
  | enum (definition : EnumDef)
  deriving DecidableEq, Inhabited

/-- The unqualified name of a definition. -/
def TypeDef.name : TypeDef → String
  | struct definition => lastSegment definition.name
  | enum definition => lastSegment definition.name

namespace TypeRegistry

/-- Enter a definition. -/
def enter (registry : TypeRegistry) : TypeDef → TypeRegistry
  | .struct definition => registry.registerStruct definition
  | .enum definition => registry.registerEnum definition

/-- The types known after definitions in their order. -/
def afterDefs (defs : List TypeDef) : TypeRegistry :=
  defs.foldl enter empty

theorem get?_register (registry : TypeRegistry) (path wanted : String)
    (definition : RegisteredType) :
    (registry.register path definition).get? wanted =
      if lastSegment path = lastSegment wanted then some definition else registry.get? wanted := by
  simp only [get?, register, NameMap.get?_insert, eq_comm]

end TypeRegistry

/-- The last definition of a name, with the definitions in front of it. -/
def lastNamed? (name : String) : List TypeDef → Option (List TypeDef × TypeDef)
  | [] => none
  | first :: rest =>
      match lastNamed? name rest with
      | some (front, found) => some (first :: front, found)
      | none => if first.name = name then some ([], first) else none

theorem lastNamed?_concat (name : String) (defs : List TypeDef) (definition : TypeDef) :
    lastNamed? name (defs ++ [definition]) =
      if definition.name = name then some (defs, definition) else lastNamed? name defs := by
  induction defs with
  | nil => rfl
  | cons first rest ih =>
      rw [List.cons_append, lastNamed?, ih]
      by_cases named : definition.name = name
      · rw [if_pos named, if_pos named]
      · rw [if_neg named, if_neg named]
        rfl

/-- A definition is the last one of its name as long as no other definition of the
name comes after it. -/
theorem lastNamed?_append_cons {name : String} {definition : TypeDef}
    (named : definition.name = name) (front : List TypeDef) {back : List TypeDef}
    (last : ∀ later ∈ back, later.name ≠ name) :
    lastNamed? name (front ++ definition :: back) = some (front, definition) := by
  induction back using List.reverseRecOn with
  | nil => rw [lastNamed?_concat, if_pos named]
  | append_singleton between later ih =>
      have other : later.name ≠ name := last later (by simp)
      rw [← List.cons_append, ← List.append_assoc, lastNamed?_concat, if_neg other]
      exact ih fun earlier member => last earlier (by simp [member])

/-- What a name stands for after definitions in their order: its last definition,
and if that is a struct, the members that it has with the definitions in front of
it. -/
def definedAs (defs : List TypeDef) (name : String) : Option RegisteredType :=
  (lastNamed? name defs).map fun
    | (_, .enum _) => .enum
    | (front, .struct definition) =>
        .struct ((TypeRegistry.afterDefs front).membersOfStruct definition)

/-- What a reference resolves to after definitions in their order. -/
def referent (defs : List TypeDef) (path : String) (knownEnum : Bool) : ResolvedType :=
  if knownEnum then .enum (lastSegment path)
  else match definedAs defs (lastSegment path) with
    | some .enum => .enum (lastSegment path)
    | some (.struct members) => .userDefined (lastSegment path) members
    | none => .userDefined (lastSegment path) []

namespace TypeRegistry

theorem afterDefs_concat (defs : List TypeDef) (definition : TypeDef) :
    afterDefs (defs ++ [definition]) = (afterDefs defs).enter definition := by
  simp [afterDefs]

/-- A registry knows of a name what its last definition says. -/
theorem get?_afterDefs (defs : List TypeDef) (path : String) :
    (afterDefs defs).get? path = definedAs defs (lastSegment path) := by
  induction defs using List.reverseRecOn with
  | nil => rfl
  | append_singleton front definition ih =>
      rw [afterDefs_concat, definedAs, lastNamed?_concat]
      cases definition with
      | struct definition =>
          rw [enter, registerStruct, get?_register, TypeDef.name]
          split
          · rfl
          · exact ih
      | enum definition =>
          rw [enter, registerEnum, get?_register, TypeDef.name]
          split
          · rfl
          · exact ih

/-- A reference resolves to what its name stands for after the definitions so
far. -/
theorem resolveReference_afterDefs (defs : List TypeDef) (path : String) (knownEnum : Bool) :
    (afterDefs defs).resolveReference path knownEnum = referent defs path knownEnum := by
  rw [resolveReference, referent, isEnum, membersOf, get?_afterDefs]
  cases knownEnum with
  | true => rfl
  | false =>
      rcases definedAs defs (lastSegment path) with _ | (members | _) <;> rfl

/-- A declaration whose type ends in a reference resolves after any definitions. -/
theorem exists_resolveVariable?_afterDefs (defs : List TypeDef) {decl : VarDecl}
    {type : TypeName} {path : String} {knownEnum : Bool} (declared : decl.type? = some type)
    (ends : type.spineEnd = .userDefined path knownEnum) :
    ∃ resolved, (afterDefs defs).resolveVariable? decl = some ⟨decl.name, resolved⟩ ∧
      resolved.spineEnd = referent defs path knownEnum := by
  rcases (afterDefs defs).exists_resolve?_of_spineEnd ends with ⟨resolved, resolves, end_eq⟩
  refine ⟨resolved, ?_, end_eq.trans (resolveReference_afterDefs defs path knownEnum)⟩
  rw [resolveVariable?, declared, Option.bind_some, resolves, Option.map_some]

end TypeRegistry

end SolidityModel
