import SolidityModel.Tree.Dialect

/-!
# Writing nodes

A node of a dialect has a tag and fields.  What is read from a node that was
written field by field follows from its list of fields; whatever a tree leaves
open is written as `null`, which reads as nothing.
-/

namespace SolidityModel

/-- What is read from written values is what they were written for, if that holds of
each. -/
theorem filterMap_map_of_forall {α β γ : Type} {write : α → β} {read : β → Option γ}
    {result : α → γ} {values : List α}
    (each : ∀ value ∈ values, read (write value) = some (result value)) :
    (values.map write).filterMap read = values.map result := by
  induction values with
  | nil => rfl
  | cons value rest ih =>
      rcases List.forall_mem_cons.mp each with ⟨here, later⟩
      rw [List.map_cons, List.filterMap_cons, here, ih later, List.map_cons]

namespace Json

@[simp] theorem fieldIn?_nil (name : String) : fieldIn? name [] = none := rfl

@[simp] theorem fieldIn?_cons (name other : String) (value : Json)
    (rest : List (String × Json)) :
    fieldIn? name ((other, value) :: rest) =
      if name = other then some value else fieldIn? name rest := by
  -- Not `rfl`, which would leave the comparison of texts to unification.
  rw [fieldIn?]

/-- A value unless it is `null`. -/
def present? (value : Json) : Option Json :=
  if value.isNull then none else some value

@[simp] theorem present?_null : null.present? = none := rfl

@[simp] theorem present?_string (text : String) :
    (string text).present? = some (string text) := rfl

@[simp] theorem present?_object (fields : List (String × Json)) :
    (object fields).present? = some (object fields) := rfl

@[simp] theorem textField?_object (fields : List (String × Json)) (name : String) :
    (object fields).textField? name = (fieldIn? name fields).bind text? := rfl

theorem child?_eq_bind (node : Json) (name : String) :
    node.child? name = (node.field? name).bind present? := by
  rw [child?]
  cases node.field? name with
  | none => rfl
  | some value => cases value <;> rfl

/-- A value that may be missing. -/
def optional (value? : Option Json) : Json :=
  value?.getD null

@[simp] theorem isNull_null : null.isNull = true := rfl

@[simp] theorem isNull_string (text : String) : (string text).isNull = false := rfl

@[simp] theorem text?_null : null.text? = none := rfl

@[simp] theorem text?_string (text : String) : (string text).text? = some text := rfl

@[simp] theorem items?_array (items : List Json) : (array items).items? = some items := rfl

@[simp] theorem bool?_bool (value : Bool) : (bool value).bool? = some value := rfl

@[simp] theorem optional_none : optional none = null := rfl

@[simp] theorem optional_some (value : Json) : optional (some value) = value := rfl

end Json

namespace Dialect

/-- The node of a kind with the given fields. -/
def node (dialect : Dialect) (kind : String) (fields : List (String × Json)) : Json :=
  .object ((dialect.kindField, .string kind) :: fields)

@[simp] theorem kindField_legacy : legacy.kindField = "type" := rfl

@[simp] theorem kindField_compact : compact.kindField = "nodeType" := rfl

variable {dialect : Dialect} {kind name : String} {fields : List (String × Json)}

@[simp] theorem present?_node :
    (dialect.node kind fields).present? = some (dialect.node kind fields) := rfl

@[simp] theorem field?_node :
    (dialect.node kind fields).field? name =
      if name = dialect.kindField then some (.string kind) else Json.fieldIn? name fields := rfl

@[simp] theorem textField?_node :
    (dialect.node kind fields).textField? name =
      if name = dialect.kindField then some kind
      else (Json.fieldIn? name fields).bind Json.text? := by
  rw [Json.textField?, field?_node]
  split <;> rfl

@[simp] theorem kind?_node : dialect.kind? (dialect.node kind fields) = some kind := by
  rw [kind?, textField?_node, if_pos rfl]

@[simp] theorem child?_node :
    (dialect.node kind fields).child? name =
      if name = dialect.kindField then some (.string kind)
      else (Json.fieldIn? name fields).bind Json.present? := by
  rw [Json.child?_eq_bind, field?_node]
  split <;> rfl

@[simp] theorem items_node :
    (dialect.node kind fields).items name =
      if name = dialect.kindField then []
      else ((Json.fieldIn? name fields).bind Json.items?).getD [] := by
  rw [Json.items, field?_node]
  split <;> rfl

@[simp] theorem flag_node :
    (dialect.node kind fields).flag name =
      if name = dialect.kindField then false
      else ((Json.fieldIn? name fields).bind Json.bool?).getD false := by
  rw [Json.flag, field?_node]
  split <;> rfl

/-- A node is of the dialect it was written in, unless it has a field like the tag
of the other dialect. -/
theorem detect?_node (plain : Json.fieldIn? compact.kindField fields = none) :
    detect? (dialect.node kind fields) = some dialect := by
  cases dialect with
  | compact => simp [detect?]
  | legacy =>
      have notCompact : compact.kind? (legacy.node kind fields) = none := by
        rw [kind?, Json.textField?, field?_node, if_neg (by decide), plain]
        rfl
      simp [detect?, notCompact]

end Dialect

end SolidityModel
