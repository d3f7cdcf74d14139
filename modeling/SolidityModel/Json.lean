/-!
# JSON values

A number keeps the text it was written with, so digits survive a round trip and
no rounding takes place.  An object lists its fields in the order in which they
are to be printed.

The second half holds the tolerant readings of a node: a field of the wrong kind
reads as an absent one.  A value found inside a node is smaller than the node
(`Json.sizeOf_lt_of_child?`, `Json.sizeOf_lt_of_mem_items`), which is what lets
functions recurse through the children of a syntax tree.
-/

namespace SolidityModel

/-- A JSON value. -/
inductive Json where
  | null
  | bool (value : Bool)
  | number (text : String)
  | string (text : String)
  | array (items : List Json)
  | object (fields : List (String × Json))
  deriving Inhabited

namespace Json

/-- The value of the first field of a name. -/
def fieldIn? (name : String) : List (String × Json) → Option Json
  | [] => none
  | (other, value) :: rest => if name = other then some value else fieldIn? name rest

/-- The field of an object; every other value has no fields. -/
def field? (node : Json) (name : String) : Option Json :=
  match node with
  | object fields => fieldIn? name fields
  | _ => none

/-- The text of a string. -/
def text? : Json → Option String
  | string text => some text
  | _ => none

/-- The items of an array. -/
def items? : Json → Option (List Json)
  | array items => some items
  | _ => none

/-- The value of a truth value. -/
def bool? : Json → Option Bool
  | bool value => some value
  | _ => none

/-- Whether a value is `null`. -/
def isNull : Json → Bool
  | null => true
  | _ => false

/-- The text of a string or of a number: literals arrive as either. -/
def scalarText? : Json → Option String
  | string text => some text
  | number text => some text
  | _ => none

/-- The field of a name unless it is absent or `null`. -/
def child? (node : Json) (name : String) : Option Json :=
  match node.field? name with
  | some null => none
  | found => found

/-- The text of a string field. -/
def textField? (node : Json) (name : String) : Option String :=
  (node.field? name).bind text?

/-- The items of an array field, none if there is no such field. -/
def items (node : Json) (name : String) : List Json :=
  ((node.field? name).bind items?).getD []

/-- The value of a truth-value field, `false` if there is no such field. -/
def flag (node : Json) (name : String) : Bool :=
  ((node.field? name).bind bool?).getD false

/-! ## Values inside a value are smaller -/

theorem sizeOf_lt_of_fieldIn? {name : String} {value : Json} :
    {fields : List (String × Json)} → fieldIn? name fields = some value →
      sizeOf value < sizeOf fields
  | [], found => by simp [fieldIn?] at found
  | (other, kept) :: rest, found => by
      rw [fieldIn?] at found
      split at found
      · obtain rfl := Option.some.inj found
        simp +arith
      · have smaller := sizeOf_lt_of_fieldIn? found
        simp only [List.cons.sizeOf_spec]
        omega

theorem sizeOf_lt_of_field? {node value : Json} {name : String}
    (found : node.field? name = some value) : sizeOf value < sizeOf node := by
  cases node with
  | object fields =>
      have smaller := sizeOf_lt_of_fieldIn? found
      simp only [object.sizeOf_spec]
      omega
  | _ => simp [field?] at found

theorem field?_of_child? {node value : Json} {name : String}
    (found : node.child? name = some value) : node.field? name = some value := by
  rw [child?] at found
  split at found
  · simp at found
  · exact found

theorem sizeOf_lt_of_child? {node value : Json} {name : String}
    (found : node.child? name = some value) : sizeOf value < sizeOf node :=
  sizeOf_lt_of_field? (field?_of_child? found)

theorem sizeOf_lt_of_mem_items {node value : Json} {name : String}
    (member : value ∈ node.items name) : sizeOf value < sizeOf node := by
  rw [items] at member
  cases found : node.field? name with
  | none => simp [found] at member
  | some list =>
      have outer := sizeOf_lt_of_field? found
      cases list with
      | array values =>
          have inner : sizeOf value < sizeOf values :=
            List.sizeOf_lt_of_mem (by simpa [found, items?] using member)
          simp only [array.sizeOf_spec] at outer
          omega
      | _ => simp [found, items?] at member

end Json

end SolidityModel
