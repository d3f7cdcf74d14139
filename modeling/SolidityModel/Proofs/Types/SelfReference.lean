import SolidityModel.Proofs.Types.Reference

/-!
# References of a struct to itself

A struct is entered after its members are resolved, so a member cannot see the struct
that it belongs to.  What it sees is the definition that the name had before.  Only
where there was none, or a struct without members, the reference ends in a type of the
name that has no members (`TypeRegistry.exists_selfReference`).
-/

namespace SolidityModel

/-! ## The last definition of a name -/

section LastNamed

variable {name : String} {defs front : List TypeDef} {found : TypeDef}

theorem lastNamed?_eq_none_iff :
    lastNamed? name defs = none ↔ ∀ known ∈ defs, known.name ≠ name := by
  induction defs using List.reverseRecOn with
  | nil => simp [lastNamed?]
  | append_singleton rest last ih =>
      rw [lastNamed?_concat]
      by_cases named : last.name = name
      · simp [named]
      · simp [named, ih, or_imp, forall_and]

theorem exists_append_of_lastNamed? (isLast : lastNamed? name defs = some (front, found)) :
    ∃ back, defs = front ++ found :: back ∧ found.name = name ∧
      ∀ later ∈ back, later.name ≠ name := by
  induction defs using List.reverseRecOn with
  | nil => cases isLast
  | append_singleton rest last ih =>
      rw [lastNamed?_concat] at isLast
      by_cases named : last.name = name
      · rw [if_pos named] at isLast
        cases isLast
        exact ⟨[], rfl, named, by simp⟩
      · rw [if_neg named] at isLast
        obtain ⟨back, rfl, foundNamed, noneLater⟩ := ih isLast
        refine ⟨back ++ [last], by simp, foundNamed, fun later member => ?_⟩
        rcases List.mem_append.mp member with inBack | isLast
        · exact noneLater later inBack
        · exact List.mem_singleton.mp isLast ▸ named

end LastNamed

/-! ## What a self-reference resolves to -/

/-- The type of a declaration ends in a reference to a name, which the tree does not
mark as an enum. -/
def VarDecl.RefersTo (decl : VarDecl) (name : String) : Prop :=
  ∃ type path, decl.type? = some type ∧ type.spineEnd = .userDefined path false ∧
    lastSegment path = lastSegment name

/-- A name has no members after definitions in their order: there is no definition of
it, or the last one is a struct all of whose members are left out. -/
def LacksMembers (defs : List TypeDef) (name : String) : Prop :=
  (∀ known ∈ defs, known.name ≠ name) ∨
  ∃ front definition back, defs = front ++ .struct definition :: back ∧
    lastSegment definition.name = name ∧ (∀ later ∈ back, later.name ≠ name) ∧
    (TypeRegistry.afterDefs front).membersOfStruct definition = []

theorem definedAs_eq_none_iff {defs : List TypeDef} {name : String} :
    definedAs defs name = none ↔ ∀ known ∈ defs, known.name ≠ name := by
  rw [definedAs, Option.map_eq_none_iff, lastNamed?_eq_none_iff]

theorem definedAs_eq_struct_iff {defs : List TypeDef} {name : String} {members : List Variable} :
    definedAs defs name = some (.struct members) ↔
      ∃ front definition back, defs = front ++ .struct definition :: back ∧
        lastSegment definition.name = name ∧ (∀ later ∈ back, later.name ≠ name) ∧
        (TypeRegistry.afterDefs front).membersOfStruct definition = members := by
  constructor
  · intro defined
    obtain ⟨⟨front, found⟩, isLast, isStruct⟩ := Option.map_eq_some_iff.mp defined
    obtain ⟨back, split, named, noneLater⟩ := exists_append_of_lastNamed? isLast
    cases found with
    | struct definition =>
        cases isStruct
        exact ⟨front, definition, back, split, named, noneLater, rfl⟩
    | enum definition => cases isStruct
  · rintro ⟨front, definition, back, rfl, named, noneLater, rfl⟩
    have isNamed : (TypeDef.struct definition).name = name := named
    rw [definedAs, lastNamed?_append_cons isNamed front noneLater, Option.map_some]

theorem referent_congr {path other : String} (same : lastSegment path = lastSegment other)
    (defs : List TypeDef) (knownEnum : Bool) :
    referent defs path knownEnum = referent defs other knownEnum := by
  rw [referent, referent, same]

/-- A reference has no members where its name has none. -/
theorem referent_eq_empty_iff (defs : List TypeDef) (path : String) :
    referent defs path false = .userDefined (lastSegment path) [] ↔
      LacksMembers defs (lastSegment path) := by
  rw [LacksMembers, ← definedAs_eq_none_iff, ← definedAs_eq_struct_iff, referent]
  rcases definedAs defs (lastSegment path) with _ | members | _ <;> simp

namespace TypeRegistry

/-- In every registry a reference of a struct to itself resolves to what the name meant
before the struct, so it ends in a type without members exactly if the name had none. -/
theorem exists_selfReference (defs : List TypeDef) {definition : StructDef}
    {earlier later : List VarDecl} {decl : VarDecl}
    (split : definition.members = earlier ++ decl :: later)
    (refers : decl.RefersTo definition.name) :
    ∃ resolved : ResolvedType,
      (afterDefs defs).membersOfStruct definition =
        earlier.filterMap (afterDefs defs).resolveVariable? ++
          ⟨decl.name, resolved⟩ :: later.filterMap (afterDefs defs).resolveVariable? ∧
      resolved.spineEnd = referent defs definition.name false ∧
      (resolved.spineEnd = .userDefined (lastSegment definition.name) [] ↔
        LacksMembers defs (lastSegment definition.name)) := by
  obtain ⟨type, path, declared, ends, self⟩ := refers
  obtain ⟨resolved, resolves, endEq⟩ := exists_resolveVariable?_afterDefs defs declared ends
  rw [referent_congr self] at endEq
  refine ⟨resolved, ?_, endEq, ?_⟩
  · rw [membersOfStruct, split, List.filterMap_append, List.filterMap_cons_some resolves]
  · rw [endEq, referent_eq_empty_iff]

/-- A position with a list of positions inside. -/
def positionStruct : StructDef :=
  ⟨"Position", [⟨"size", some (.elementary "int256"), none, .mutable, .absent⟩,
    ⟨"parts", some (.array (.userDefined "Vault.Position" false) none), none, .mutable,
      .absent⟩]⟩

/-- Another position, defined in a library. -/
def ledgerDefs : List TypeDef :=
  [.struct ⟨"Position",
      [⟨"owner", some (.elementary "address"), none, .mutable, .absent⟩]⟩,
    .enum ⟨"Side", ["Long", "Short"]⟩]

theorem positionStruct_selfReference :
    ∃ earlier decl, positionStruct.members = earlier ++ decl :: [] ∧
      decl.RefersTo positionStruct.name ∧
      ∃ resolved : ResolvedType,
        (afterDefs ledgerDefs).membersOfStruct positionStruct =
          earlier.filterMap (afterDefs ledgerDefs).resolveVariable? ++
            ⟨decl.name, resolved⟩ :: [].filterMap (afterDefs ledgerDefs).resolveVariable? ∧
        resolved.spineEnd = referent ledgerDefs positionStruct.name false ∧
        (resolved.spineEnd = .userDefined (lastSegment positionStruct.name) [] ↔
          LacksMembers ledgerDefs (lastSegment positionStruct.name)) := by
  have split : positionStruct.members =
      [positionStruct.members[0]] ++ positionStruct.members[1] :: [] := rfl
  have refers : positionStruct.members[1].RefersTo positionStruct.name :=
    ⟨_, "Vault.Position", rfl, rfl, by decide +kernel⟩
  exact ⟨_, _, split, refers, exists_selfReference ledgerDefs split refers⟩

/-- The position of the library takes the place of the one that is being defined. -/
theorem positionStruct_meets_other :
    positionStruct.members[1].RefersTo positionStruct.name ∧
    (afterDefs ledgerDefs).membersOfStruct positionStruct =
      [⟨"size", .elementary "int256"⟩,
        ⟨"parts",
          .array (.userDefined "Position" [⟨"owner", .elementary "address"⟩]) [none]⟩] :=
  ⟨⟨_, "Vault.Position", rfl, rfl, by decide +kernel⟩, by decide +kernel⟩

end TypeRegistry

end SolidityModel
