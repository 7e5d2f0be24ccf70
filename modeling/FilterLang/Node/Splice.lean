import FilterLang.Node

/-! Units taken out of a block and put into it. The connectors follow, so that every unit but the last
of a level keeps one. -/
namespace FilterLang.Node

variable {α : Type}

/-- Splits a list around the first member that satisfies `p`. -/
def splitFirst? (p : α → Bool) : List α → Option (List α × α × List α)
  | [] => none
  | a :: as =>
    if p a then some ([], a, as)
    else (splitFirst? p as).map fun (before, hit, after) => (a :: before, hit, after)

/-- Whether a unit is a single condition on the field. -/
def isOn (name : Text) : Node Condition → Bool
  | leaf c _ => c.field = name
  | group _ _ => false

/-- Whether a unit is, or holds, a condition on the field. -/
def mentions (name : Text) : Node Condition → Bool
  | leaf c _ => c.field = name
  | group children _ => children.any (isOn name)

/-- Removes the unit between two parts of a level. Its connector passes to the unit before it. -/
def close (before : List (Node α)) (removed : Node α) (after : List (Node α)) : List (Node α) :=
  relink removed.connector before ++ after

/-- Removes the first condition on a field, and its group if nothing else is in it. -/
def deleteFirst? (name : Text) (nodes : List (Node Condition)) :
    Option (List (Node Condition)) := do
  let (before, hit, after) ← splitFirst? (mentions name) nodes
  match hit with
  | leaf _ _ => return close before hit after
  | group children k =>
    let (inBefore, inHit, inAfter) ← splitFirst? (isOn name) children
    let rest := close inBefore inHit inAfter
    return if rest.isEmpty then close before hit after else before ++ group rest k :: after

/-- Puts units in front of others. Every unit that another one follows takes its own connector. -/
def putBefore : List (Connector × Node α) → List (Node α) → List (Node α)
  | [], nodes => nodes
  | (k, n) :: rest, nodes =>
    let tail := putBefore rest nodes
    n.withConnector (if tail.isEmpty then none else some k) :: tail

/-- Puts units behind others, each joined by its own connector to what stands before it. -/
def putAfter (nodes : List (Node α)) (added : List (Connector × Node α)) : List (Node α) :=
  added.foldl (fun nodes (k, n) => relink (some k) nodes ++ [n]) nodes

end FilterLang.Node
