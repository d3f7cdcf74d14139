import SolidityModel.NameMap

/-!
# Finite sets of names

A set of names is a map that stores nothing beside its names, so it lists its
members in ascending order, and sets with the same members are equal
(`NameSet.ext_mem`).
-/

namespace SolidityModel

/-- A finite set of names, listed in ascending order. -/
abbrev NameSet := NameMap Unit

namespace NameSet

/-- The set without members. -/
def empty : NameSet := NameMap.empty

/-- Add one name. -/
def add (set : NameSet) (name : String) : NameSet :=
  set.insert name ()

/-- Add every name of a list. -/
def addAll (set : NameSet) (names : List String) : NameSet :=
  names.foldl add set

/-- The set of the names in a list. -/
def ofList (names : List String) : NameSet :=
  addAll empty names

/-- The members in ascending order. -/
def toList (set : NameSet) : List String :=
  set.names

instance : Membership String NameSet := ⟨fun set name => name ∈ set.toList⟩

instance (name : String) (set : NameSet) : Decidable (name ∈ set) :=
  inferInstanceAs (Decidable (name ∈ set.toList))

@[simp] theorem mem_toList {set : NameSet} {name : String} :
    name ∈ set.toList ↔ name ∈ set := Iff.rfl

theorem mem_iff_get? {set : NameSet} {name : String} :
    name ∈ set ↔ (set.get? name).isSome :=
  NameMap.mem_names_iff

@[simp] theorem not_mem_empty (name : String) : name ∉ empty := by
  simp [mem_iff_get?, empty]

@[simp] theorem mem_add {set : NameSet} {name wanted : String} :
    wanted ∈ set.add name ↔ wanted = name ∨ wanted ∈ set := by
  rw [mem_iff_get?, mem_iff_get?, add, NameMap.get?_insert]
  by_cases equal : wanted = name <;> simp [equal]

@[simp] theorem mem_addAll {names : List String} {set : NameSet} {wanted : String} :
    wanted ∈ set.addAll names ↔ wanted ∈ set ∨ wanted ∈ names := by
  induction names generalizing set with
  | nil => simp [addAll]
  | cons name rest ih =>
      have step : set.addAll (name :: rest) = (set.add name).addAll rest := rfl
      rw [step, ih, mem_add, List.mem_cons]
      constructor
      · rintro ((equal | member) | member)
        · exact .inr (.inl equal)
        · exact .inl member
        · exact .inr (.inr member)
      · rintro (member | equal | member)
        · exact .inl (.inr member)
        · exact .inl (.inl equal)
        · exact .inr member

@[simp] theorem mem_ofList {names : List String} {wanted : String} :
    wanted ∈ ofList names ↔ wanted ∈ names := by
  simp [ofList]

theorem isEmpty_eq_false_iff {set : NameSet} : set.isEmpty = false ↔ ∃ name, name ∈ set := by
  rw [NameMap.isEmpty, List.isEmpty_eq_false_iff]
  constructor
  · intro nonempty
    obtain ⟨entry, member⟩ := List.exists_mem_of_ne_nil _ nonempty
    exact ⟨entry.1, List.mem_map_of_mem member⟩
  · rintro ⟨name, member⟩
    obtain ⟨entry, isEntry, -⟩ := List.mem_map.mp member
    exact List.ne_nil_of_mem isEntry

/-- Sets with the same members are equal. -/
theorem ext_mem {left right : NameSet} (same : ∀ name, name ∈ left ↔ name ∈ right) :
    left = right := by
  refine NameMap.ext_get? fun name => ?_
  have agree := same name
  rw [mem_iff_get?, mem_iff_get?] at agree
  cases foundLeft : left.get? name <;> cases foundRight : right.get? name <;> simp_all

end NameSet

end SolidityModel
