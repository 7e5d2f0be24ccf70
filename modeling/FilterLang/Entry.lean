import FilterLang.Block
import FilterLang.Resolver

/-! Conditions one by one, outside their block. -/
namespace FilterLang

/-- A condition with its place in a block. -/
structure Occurrence where
  condition : Condition
  inGroup : Bool
  /-- The connector written after it. -/
  separator : Option Connector

/-- A condition as it is listed, or as a caller gives it. -/
structure Entry where
  field : Text
  /-- The token, or the SQL spelling where columns stand in place of fields. -/
  operator : Text
  value : Text
  /-- Whether it stands, or should stand, inside parentheses. -/
  inGroup : Bool
  /-- The connector written after it, or the one that joins it to its neighbour when it is added. -/
  separator : Option Connector

namespace Occurrence

/-- The conditions of one unit. After the last one of a group stands the connector of the group. -/
def ofNode : Node Condition → List Occurrence
  | .leaf c k => [⟨c, false, k⟩]
  | .group children k => (Node.relink k children).filterMap fun
    | .leaf c k => some ⟨c, true, k⟩
    | .group _ _ => none

/-- Every condition of a block, in its order. -/
def ofNodes (nodes : List (Node Condition)) : List Occurrence := nodes.flatMap ofNode

/-- Lists a condition as written. -/
def entry (o : Occurrence) : Entry :=
  ⟨o.condition.field, o.condition.operator.token, o.condition.value, o.inGroup, o.separator⟩

/-- Lists a condition with its column and SQL operator. -/
def resolve (r : Resolver) (o : Occurrence) : Except Error Entry := do
  let column ← r.column .condition o.condition.field
  return ⟨column, o.condition.operator.sql, o.condition.value, o.inGroup, o.separator⟩

end Occurrence

namespace Entry

/-- The condition that an entry writes. It must not turn into anything else once it is printed. -/
def toCondition (e : Entry) : Except Error Condition :=
  match Operator.ofToken? e.operator with
  | none => .error (.unsupportedOperator e.operator)
  | some operator =>
    let condition : Condition := ⟨e.field, operator, e.value⟩
    if condition.readsBack then .ok condition
    else .error (.malformed (.notReadBack condition.print))

/-- The unit that an entry adds to a block. -/
def toNode (e : Entry) (k : Option Connector) : Except Error (Node Condition) := do
  let condition ← e.toCondition
  return if e.inGroup then .group [.leaf condition none] k else .leaf condition k

end Entry

end FilterLang
