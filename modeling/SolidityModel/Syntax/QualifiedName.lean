/-!
# Qualified names

A reference such as `Lib.Position` names its definition by the segment after the
last dot.
-/

namespace SolidityModel

/-- The longest end of a path that holds no dot. -/
def afterLastDot : List Char → List Char
  | [] => []
  | char :: rest => if '.' ∈ char :: rest then afterLastDot rest else char :: rest

/-- The segment of a qualified name after its last dot. -/
def lastSegment (path : String) : String :=
  String.ofList (afterLastDot path.toList)

theorem afterLastDot_eq_self {path : List Char} (noDot : '.' ∉ path) :
    afterLastDot path = path := by
  cases path with
  | nil => rfl
  | cons char rest => rw [afterLastDot, if_neg noDot]

theorem dot_not_mem_afterLastDot (path : List Char) : '.' ∉ afterLastDot path := by
  induction path with
  | nil => simp [afterLastDot]
  | cons char rest ih =>
      rw [afterLastDot]
      split
      · exact ih
      · assumption

/-- A last segment has no further segments. -/
@[simp] theorem lastSegment_lastSegment (path : String) :
    lastSegment (lastSegment path) = lastSegment path := by
  rw [lastSegment, lastSegment, String.toList_ofList,
    afterLastDot_eq_self (dot_not_mem_afterLastDot path.toList)]

end SolidityModel
