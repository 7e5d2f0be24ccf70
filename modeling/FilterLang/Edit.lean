import FilterLang.Entry
import FilterLang.Filter
import FilterLang.Node.Splice
import FilterLang.Restriction
import FilterLang.Selection

/-! Changes to a filter. Each one writes its own block and keeps the text of the others. -/
namespace FilterLang

namespace Entry

/-- Replaces the first condition on the entry's field, if there is one. Inside a group the
parentheses stay as they are. -/
def replaceFirst? (e : Entry) (nodes : List (Node Condition)) :
    Except Error (Option (List (Node Condition))) :=
  match Node.splitFirst? (Node.mentions e.field) nodes with
  | none => .ok none
  | some (before, .leaf _ k, after) => do
    return some (before ++ (← e.toNode k) :: after)
  | some (before, .group children k, after) =>
    match Node.splitFirst? (Node.isOn e.field) children with
    | none => .ok none
    | some (inBefore, inHit, inAfter) => do
      let children := inBefore ++ .leaf (← e.toCondition) inHit.connector :: inAfter
      return some (before ++ .group children k :: after)

/-- The units that entries add, each with its connector. Entries without a field add nothing. -/
def additions (entries : List Entry) : Except Error (List (Connector × Node Condition)) :=
  (entries.filter (!·.field.isEmpty)).mapM fun e => do
    return (e.separator.getD .and, ← e.toNode none)

end Entry

namespace Edit

/-- Appends names to a list, except those that the model does not know or the list has already. -/
def appendNames (r : Resolver) (selected : List Text) (names : List Text) : List Text :=
  names.foldl (fun selected name =>
    if (r.resolve name).isSome && !selected.contains name then selected ++ [name] else selected)
    selected

/-- Adds names to the select block, or sets it to them. -/
def addFields (r : Resolver) (names : List Text) (replace : Bool) (f : Filter) : Filter :=
  let current := if replace then [] else (Selection.names f.fields).filter (!·.isEmpty)
  { f with fields := [','].intercalate (appendNames r current names) }

/-- Adds conditions behind the current ones, before them, or in place of them. All of them are
checked before anything changes. -/
def addConditions (entries : List Entry) (replace leading : Bool) (f : Filter) :
    Except Error Filter := do
  let nodes ← f.nodes
  if entries.isEmpty then return f
  let added ← Entry.additions entries
  let kept := if replace then [] else nodes
  return f.withNodes (if leading then Node.putBefore added kept else Node.putAfter kept added)

/-- Writes changed units, or leaves the filter as it is where nothing changed. -/
def update (f : Filter) : Option (List (Node Condition)) → Filter
  | none => f
  | some nodes => f.withNodes nodes

/-- Replaces the first condition on a field, if there is one. -/
def replaceCondition (e : Entry) (f : Filter) : Except Error Filter := do
  return update f (← e.replaceFirst? (← f.nodes))

/-- Deletes the first condition on a field, if there is one. -/
def deleteCondition (name : Text) (f : Filter) : Except Error Filter := do
  return update f (Node.deleteFirst? name (← f.nodes))

/-- Sets restriction positions. An empty text, an unknown order, and what is no number of rows leave
their position as it was. -/
def addRestrictions (sortFields sortOrder limit offset : Text) (f : Filter) :
    Except Error Filter := do
  let p ← Positions.parse f.restrictions
  let p : Positions := {
    sortFields := if sortFields.isEmpty then p.sortFields else sortFields
    sortOrder := if (SortOrder.ofText? sortOrder).isSome then sortOrder else p.sortOrder
    limit := if (Text.nat64? limit).isSome then limit else p.limit
    offset := if (Text.nat64? offset).isSome then offset else p.offset }
  return { f with restrictions := p.print }

/-- Writes the condition block again from its units. -/
def normalize (f : Filter) : Except Error Filter := do
  return f.withNodes (← f.nodes)

/-- Applies a change to the text of a filter. -/
def onText (edit : Filter → Except Error Filter) (filter : Text) : Except Error Text := do
  return (← edit (← Filter.parse filter)).print

end Edit

end FilterLang
