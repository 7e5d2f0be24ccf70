import FilterLang.Condition

/-! Units of a block in their order, each with the connector that follows it. -/
namespace FilterLang

/-- A single item or a parenthesized group. The last unit of a level has no connector. -/
inductive Node (α : Type) where
  | leaf (item : α) (connector : Option Connector)
  | group (children : List (Node α)) (connector : Option Connector)

namespace Node

variable {α β ε : Type}

def isGroup : Node α → Bool
  | leaf _ _ => false
  | group _ _ => true

def connector : Node α → Option Connector
  | leaf _ k => k
  | group _ k => k

def withConnector (k : Option Connector) : Node α → Node α
  | leaf item _ => leaf item k
  | group children _ => group children k

/-- Changes the connector of the last unit. -/
def relink (k : Option Connector) : List (Node α) → List (Node α)
  | [] => []
  | [n] => [n.withConnector k]
  | n :: m :: ns => n :: relink k (m :: ns)

mutual

/-- Replaces every item, from left to right, up to the first failure. -/
def traverse (f : α → Except ε β) : Node α → Except ε (Node β)
  | leaf item k => do return leaf (← f item) k
  | group children k => do return group (← traverseAll f children) k

def traverseAll (f : α → Except ε β) : List (Node α) → Except ε (List (Node β))
  | [] => .ok []
  | n :: ns => do return (← n.traverse f) :: (← traverseAll f ns)

end

mutual

/-- The text of a unit in the filter language. -/
def print : Node Condition → Text
  | leaf c k => c.print ++ Connector.text k
  | group children k => '(' :: printAll children ++ ')' :: Connector.text k

def printAll : List (Node Condition) → Text
  | [] => []
  | n :: ns => n.print ++ printAll ns

end

theorem printAll_append (xs ys : List (Node Condition)) :
    printAll (xs ++ ys) = printAll xs ++ printAll ys := by
  induction xs with
  | nil => rfl
  | cons n ns ih => simp [printAll, ih]

end Node

end FilterLang
