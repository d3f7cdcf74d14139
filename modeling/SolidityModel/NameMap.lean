/-!
# Finite maps keyed by names

A map keeps its entries in strictly ascending order of their names, the order of
their code points.  Every map therefore has one representation: two maps that
answer every lookup alike are equal (`NameMap.ext_get?`), and a listing of a map
never depends on the order in which its entries arrived.
-/

namespace SolidityModel

/-- A finite map from names to values, listed by ascending name. -/
structure NameMap (α : Type) where
  /-- The names with their values. -/
  entries : List (String × α)
  /-- No name occurs twice, and the listing follows the order of the names. -/
  ascending : entries.Pairwise fun left right => left.1 < right.1
  deriving DecidableEq

namespace NameMap

variable {α β : Type}

/-- The map without entries. -/
def empty : NameMap α := ⟨[], .nil⟩

instance : EmptyCollection (NameMap α) := ⟨empty⟩

instance : Inhabited (NameMap α) := ⟨empty⟩

/-- The value of the first entry of a name in a listing. -/
def valueIn? (name : String) : List (String × α) → Option α
  | [] => none
  | (other, value) :: rest => if name = other then some value else valueIn? name rest

/-- The value stored under a name. -/
def get? (map : NameMap α) (name : String) : Option α :=
  valueIn? name map.entries

/-- Whether a value is stored under a name. -/
def contains (map : NameMap α) (name : String) : Bool :=
  (map.get? name).isSome

/-- The names with a value, in ascending order. -/
def names (map : NameMap α) : List String :=
  map.entries.map (·.1)

/-- The values, in the ascending order of their names. -/
def values (map : NameMap α) : List α :=
  map.entries.map (·.2)

/-- The number of names with a value. -/
def size (map : NameMap α) : Nat :=
  map.entries.length

/-- Whether the map has no entries. -/
def isEmpty (map : NameMap α) : Bool :=
  map.entries.isEmpty

/-- Put an entry at its place in an ascending listing, over an entry of the same
name if there is one. -/
def place (name : String) (value : α) : List (String × α) → List (String × α)
  | [] => [(name, value)]
  | (other, kept) :: rest =>
      if name < other then (name, value) :: (other, kept) :: rest
      else if name = other then (name, value) :: rest
      else (other, kept) :: place name value rest

theorem mem_place {name : String} {value : α} {entry : String × α}
    {entries : List (String × α)} (member : entry ∈ place name value entries) :
    entry = (name, value) ∨ entry ∈ entries := by
  induction entries with
  | nil => simpa [place] using member
  | cons head rest ih =>
      obtain ⟨other, kept⟩ := head
      rw [place] at member
      split at member
      · simpa using member
      · split at member
        · rcases List.mem_cons.mp member with equal | member
          · exact .inl equal
          · exact .inr (List.mem_cons_of_mem _ member)
        · rcases List.mem_cons.mp member with equal | member
          · exact .inr (equal ▸ List.mem_cons_self)
          · exact (ih member).imp_right (List.mem_cons_of_mem _)

/-- Of two different names one comes first. -/
theorem lt_of_not_lt_of_ne {left right : String} (notBefore : ¬left < right)
    (different : left ≠ right) : right < left := by
  rcases Classical.em (right < left) with before | notAfter
  · exact before
  · exact absurd (String.le_antisymm (String.not_lt.mp notAfter)
      (String.not_lt.mp notBefore)) different

theorem place_ascending (name : String) (value : α) {entries : List (String × α)}
    (ascending : entries.Pairwise fun left right => left.1 < right.1) :
    (place name value entries).Pairwise fun left right => left.1 < right.1 := by
  induction entries with
  | nil => simp [place]
  | cons head rest ih =>
      obtain ⟨other, kept⟩ := head
      obtain ⟨first, ascendingRest⟩ := List.pairwise_cons.mp ascending
      rw [place]
      split
      next before =>
        refine List.pairwise_cons.mpr ⟨fun entry member => ?_, ascending⟩
        rcases List.mem_cons.mp member with equal | member
        · exact equal ▸ before
        · exact String.lt_trans before (first entry member)
      next notBefore =>
        split
        next equal =>
          exact List.pairwise_cons.mpr ⟨fun entry member => equal ▸ first entry member,
            ascendingRest⟩
        next different =>
          refine List.pairwise_cons.mpr ⟨fun entry member => ?_, ih ascendingRest⟩
          rcases mem_place member with equal | member
          · exact equal ▸ lt_of_not_lt_of_ne notBefore different
          · exact first entry member

/-- Store a value under a name, over the value stored there before. -/
def insert (map : NameMap α) (name : String) (value : α) : NameMap α :=
  ⟨place name value map.entries, place_ascending name value map.ascending⟩

/-- The map of a list of entries, of which a later one replaces an earlier one of
the same name. -/
def ofList (entries : List (String × α)) : NameMap α :=
  entries.foldl (fun map entry => map.insert entry.1 entry.2) empty

/-- Apply a function to every value. -/
def map (convert : α → β) (source : NameMap α) : NameMap β :=
  ⟨source.entries.map fun entry => (entry.1, convert entry.2),
    List.pairwise_map.mpr source.ascending⟩

/-- Keep the entries that pass a test. -/
def filter (keep : String → α → Bool) (source : NameMap α) : NameMap α :=
  ⟨source.entries.filter fun entry => keep entry.1 entry.2, source.ascending.filter _⟩

/-! ## Lookup laws -/

@[simp] theorem get?_empty (name : String) : (empty : NameMap α).get? name = none := rfl

theorem valueIn?_place (name : String) (value : α) (wanted : String)
    (entries : List (String × α)) :
    valueIn? wanted (place name value entries) =
      if wanted = name then some value else valueIn? wanted entries := by
  induction entries with
  | nil => rfl
  | cons head rest ih =>
      obtain ⟨other, kept⟩ := head
      rw [place]
      split
      · rfl
      · split
        next same =>
          subst same
          by_cases equal : wanted = name <;> simp [valueIn?, equal]
        next different =>
          by_cases equal : wanted = name
          · subst equal
            simpa [valueIn?, different] using ih
          · simp [valueIn?, ih, equal]

@[simp] theorem get?_insert (map : NameMap α) (name : String) (value : α)
    (wanted : String) :
    (map.insert name value).get? wanted =
      if wanted = name then some value else map.get? wanted :=
  valueIn?_place name value wanted map.entries

theorem valueIn?_eq_none_of_forall_lt {name : String} {entries : List (String × α)}
    (later : ∀ entry ∈ entries, name < entry.1) : valueIn? name entries = none := by
  induction entries with
  | nil => rfl
  | cons head rest ih =>
      obtain ⟨other, kept⟩ := head
      have before : name < other := later _ List.mem_cons_self
      have different : name ≠ other := fun equal =>
        String.lt_irrefl name (equal ▸ before)
      simpa [valueIn?, different] using
        ih fun entry member => later entry (List.mem_cons_of_mem _ member)

theorem valueIn?_eq_some_iff {entries : List (String × α)}
    (ascending : entries.Pairwise fun left right => left.1 < right.1)
    {name : String} {value : α} :
    valueIn? name entries = some value ↔ (name, value) ∈ entries := by
  induction entries with
  | nil => simp [valueIn?]
  | cons head rest ih =>
      obtain ⟨other, kept⟩ := head
      obtain ⟨first, ascendingRest⟩ := List.pairwise_cons.mp ascending
      by_cases equal : name = other
      · subst equal
        have absent : (name, value) ∉ rest := fun member =>
          String.lt_irrefl name (first _ member)
        simp [valueIn?, absent, eq_comm]
      · simp [valueIn?, equal, ih ascendingRest]

/-- A lookup finds a value exactly where the listing holds it. -/
theorem get?_eq_some_iff {map : NameMap α} {name : String} {value : α} :
    map.get? name = some value ↔ (name, value) ∈ map.entries :=
  valueIn?_eq_some_iff map.ascending

/-- Every value is found under some name. -/
theorem exists_get?_of_mem_values {map : NameMap α} {value : α} (member : value ∈ map.values) :
    ∃ name, map.get? name = some value := by
  obtain ⟨⟨name, _⟩, isEntry, rfl⟩ := List.mem_map.mp member
  exact ⟨name, get?_eq_some_iff.mpr isEntry⟩

/-- The names are those whose lookup succeeds. -/
theorem mem_names_iff {map : NameMap α} {name : String} :
    name ∈ map.names ↔ (map.get? name).isSome := by
  rw [names, List.mem_map, Option.isSome_iff_exists]
  constructor
  · rintro ⟨entry, member, rfl⟩
    exact ⟨entry.2, get?_eq_some_iff.mpr member⟩
  · rintro ⟨value, found⟩
    exact ⟨(name, value), get?_eq_some_iff.mp found, rfl⟩

theorem mem_names_insert {map : NameMap α} {name : String} {value : α} {wanted : String} :
    wanted ∈ (map.insert name value).names ↔ wanted = name ∨ wanted ∈ map.names := by
  rw [mem_names_iff, mem_names_iff, get?_insert]
  by_cases equal : wanted = name <;> simp [equal]

theorem mem_names_foldl_insert {entries : List (String × α)} {map : NameMap α}
    {wanted : String} :
    wanted ∈ (entries.foldl (fun map entry => map.insert entry.1 entry.2) map).names ↔
      wanted ∈ map.names ∨ wanted ∈ entries.map (·.1) := by
  induction entries generalizing map with
  | nil => simp
  | cons entry rest ih =>
      rw [List.foldl_cons, ih, mem_names_insert, List.map_cons, List.mem_cons, or_assoc,
        or_left_comm]

/-- A map built from a list has the names of the list. -/
theorem mem_names_ofList {entries : List (String × α)} {wanted : String} :
    wanted ∈ (ofList entries).names ↔ wanted ∈ entries.map (·.1) := by
  rw [ofList, mem_names_foldl_insert]
  simp [names, empty]

theorem eq_of_valueIn?_eq : {left right : List (String × α)} →
    (left.Pairwise fun first second => first.1 < second.1) →
    (right.Pairwise fun first second => first.1 < second.1) →
    (∀ name, valueIn? name left = valueIn? name right) → left = right
  | [], [], _, _, _ => rfl
  | [], (name, value) :: rest, _, _, same => by
      have found := same name
      simp [valueIn?] at found
  | (name, value) :: rest, [], _, _, same => by
      have found := same name
      simp [valueIn?] at found
  | (name, value) :: rest, (other, kept) :: others, ascending, ascendingOther, same => by
      obtain ⟨first, ascendingRest⟩ := List.pairwise_cons.mp ascending
      obtain ⟨firstOther, ascendingOthers⟩ := List.pairwise_cons.mp ascendingOther
      have notBefore : ¬name < other := fun before => by
        have found := same name
        have absent : valueIn? name ((other, kept) :: others) = none :=
          valueIn?_eq_none_of_forall_lt fun entry member => by
            rcases List.mem_cons.mp member with equal | member
            · exact equal ▸ before
            · exact String.lt_trans before (firstOther entry member)
        rw [absent] at found
        simp [valueIn?] at found
      have notAfter : ¬other < name := fun after => by
        have found := same other
        have absent : valueIn? other ((name, value) :: rest) = none :=
          valueIn?_eq_none_of_forall_lt fun entry member => by
            rcases List.mem_cons.mp member with equal | member
            · exact equal ▸ after
            · exact String.lt_trans after (first entry member)
        rw [absent] at found
        simp [valueIn?] at found
      have equal : name = other :=
        String.le_antisymm (String.not_lt.mp notAfter) (String.not_lt.mp notBefore)
      subst equal
      have sameValue : value = kept := by
        have found := same name
        simpa [valueIn?] using found
      subst sameValue
      congr 1
      refine eq_of_valueIn?_eq ascendingRest ascendingOthers fun wanted => ?_
      have found := same wanted
      by_cases equal : wanted = name
      · subst equal
        rw [valueIn?_eq_none_of_forall_lt first, valueIn?_eq_none_of_forall_lt firstOther]
      · simpa [valueIn?, equal] using found

theorem valueIn?_map (convert : α → β) (name : String) (entries : List (String × α)) :
    valueIn? name (entries.map fun entry => (entry.1, convert entry.2)) =
      (valueIn? name entries).map convert := by
  induction entries with
  | nil => rfl
  | cons head rest ih => by_cases equal : name = head.1 <;> simp [valueIn?, equal, ih]

@[simp] theorem get?_map (convert : α → β) (source : NameMap α) (name : String) :
    (source.map convert).get? name = (source.get? name).map convert :=
  valueIn?_map convert name source.entries

theorem get?_filter_eq_some_iff {keep : String → α → Bool} {source : NameMap α} {name : String}
    {value : α} :
    (source.filter keep).get? name = some value ↔
      source.get? name = some value ∧ keep name value = true := by
  rw [get?_eq_some_iff, get?_eq_some_iff, filter, List.mem_filter]

/-! ## Values that tell their names

Where each entry lists items that tell its name, the items of one entry can be
found again among those of all. -/

/-- The items of the entries whose names pass a test. -/
theorem filter_flatMap_values_of_names {map : NameMap α} {list : α → List β} {nameOf : β → String}
    (told : ∀ name value, map.get? name = some value → ∀ item ∈ list value, nameOf item = name)
    (keep : String → Bool) :
    (map.values.flatMap list).filter (fun item => keep (nameOf item)) =
      (map.filter fun name _ => keep name).values.flatMap list := by
  have toldOf : ∀ entry ∈ map.entries, ∀ item ∈ list entry.2, nameOf item = entry.1 :=
    fun entry member => told entry.1 entry.2 (get?_eq_some_iff.mpr member)
  simp only [values, filter]
  generalize map.entries = entries at toldOf
  induction entries with
  | nil => rfl
  | cons head rest ih =>
      obtain ⟨toldHere, toldRest⟩ := List.forall_mem_cons.mp toldOf
      rw [List.map_cons, List.flatMap_cons, List.filter_append, ih toldRest, List.filter_cons]
      split
      next kept =>
        have all : (list head.2).filter (fun item => keep (nameOf item)) = list head.2 :=
          List.filter_eq_self.mpr fun item member => by rwa [toldHere item member]
        rw [all, List.map_cons, List.flatMap_cons]
      next dropped =>
        have none : (list head.2).filter (fun item => keep (nameOf item)) = [] :=
          List.filter_eq_nil_iff.mpr fun item member => by rwa [toldHere item member]
        rw [none, List.nil_append]

theorem filter_name_eq_valueIn? {entries : List (String × α)}
    (ascending : entries.Pairwise fun left right => left.1 < right.1) (name : String) :
    (entries.filter fun entry => entry.1 = name).map (·.2) = (valueIn? name entries).toList := by
  induction entries with
  | nil => rfl
  | cons head rest ih =>
      obtain ⟨other, value⟩ := head
      obtain ⟨first, ascendingRest⟩ := List.pairwise_cons.mp ascending
      by_cases equal : other = name
      · subst equal
        have noOther : (rest.filter fun entry => entry.1 = other) = [] :=
          List.filter_eq_nil_iff.mpr fun entry member same =>
            String.lt_irrefl other (of_decide_eq_true same ▸ first entry member)
        simp [valueIn?, noOther]
      · simp [valueIn?, equal, Ne.symm equal, ih ascendingRest]

/-- The items of the entry of one name. -/
theorem filter_flatMap_values {map : NameMap α} {list : α → List β} {nameOf : β → String}
    (told : ∀ name value, map.get? name = some value → ∀ item ∈ list value, nameOf item = name)
    (name : String) :
    (map.values.flatMap list).filter (nameOf · = name) = ((map.get? name).map list).getD [] := by
  have entry : (map.filter fun other _ => other = name).values = (map.get? name).toList :=
    filter_name_eq_valueIn? map.ascending name
  rw [filter_flatMap_values_of_names told (· = name), entry]
  cases map.get? name <;> simp

/-- Items are listed by ascending name. -/
theorem pairwise_flatMap_values {map : NameMap α} {list : α → List β} {nameOf : β → String}
    (told : ∀ name value, map.get? name = some value → ∀ item ∈ list value, nameOf item = name) :
    (map.values.flatMap list).Pairwise fun earlier later => nameOf earlier ≤ nameOf later := by
  have toldOf : ∀ entry ∈ map.entries, ∀ item ∈ list entry.2, nameOf item = entry.1 :=
    fun entry member => told entry.1 entry.2 (get?_eq_some_iff.mpr member)
  rw [values, List.pairwise_flatMap]
  constructor
  · intro value member
    obtain ⟨entry, entryMember, rfl⟩ := List.mem_map.mp member
    refine List.pairwise_of_forall_mem_list fun item itemMember other otherMember => ?_
    have equal : nameOf item = nameOf other :=
      (toldOf entry entryMember item itemMember).trans
        (toldOf entry entryMember other otherMember).symm
    exact equal ▸ String.le_refl (nameOf item)
  · refine List.pairwise_map.mpr (map.ascending.imp_of_mem ?_)
    intro first second firstMember secondMember before item itemMember other otherMember
    rw [toldOf first firstMember item itemMember, toldOf second secondMember other otherMember]
    exact String.not_lt.mp fun after => String.lt_irrefl _ (String.lt_trans before after)

/-- Maps that answer every lookup alike are equal. -/
theorem ext_get? {left right : NameMap α}
    (same : ∀ name, left.get? name = right.get? name) : left = right := by
  obtain ⟨entries, ascending⟩ := left
  obtain ⟨others, ascendingOthers⟩ := right
  have equal : entries = others := eq_of_valueIn?_eq ascending ascendingOthers same
  subst equal
  rfl

end NameMap

end SolidityModel
