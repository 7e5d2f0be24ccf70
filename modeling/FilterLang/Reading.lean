import FilterLang.Entry
import FilterLang.Filter
import FilterLang.Restriction
import FilterLang.Selection

/-! What a filter says, block by block. Only the block that is asked for is read. -/
namespace FilterLang.Reading

/-- The columns that the filter selects, if it names any. -/
def fields (r : Resolver) (filter : Text) : Except Error (Option (List Text)) := do
  Selection.columns? r (← Filter.parse filter).fields

def occurrences (filter : Text) : Except Error (List Occurrence) := do
  return Occurrence.ofNodes (← (← Filter.parse filter).nodes)

/-- Every condition, as written. -/
def conditions (filter : Text) : Except Error (List Entry) := do
  return (← occurrences filter).map Occurrence.entry

/-- Every condition, with columns and SQL operators. -/
def resolvedConditions (r : Resolver) (filter : Text) : Except Error (List Entry) := do
  (← occurrences filter).mapM (Occurrence.resolve r)

/-- The first condition on a field. -/
def occurrence? (name filter : Text) : Except Error (Option Occurrence) := do
  if name.isEmpty then .error (.missing .fieldName)
  return (← occurrences filter).find? (·.condition.field = name)

/-- The first condition on a field, as written. -/
def condition? (name filter : Text) : Except Error (Option Entry) := do
  return (← occurrence? name filter).map Occurrence.entry

/-- The first condition on a field, with its column and SQL operator. -/
def resolvedCondition? (r : Resolver) (name filter : Text) : Except Error (Option Entry) := do
  (← occurrence? name filter).mapM (Occurrence.resolve r)

/-- Every unit of a search text, as written. -/
def searchConditions (search : Text) : Except Error (List Entry) := do
  if search.isEmpty then .error (.missing .searchString)
  return (Occurrence.ofNodes (← Block.parse .search search)).map Occurrence.entry

def positions (filter : Text) : Except Error Positions := do
  Positions.parse (← Filter.parse filter).restrictions

def sortFields (r : Resolver) (filter : Text) : Except Error (Option (List Text)) := do
  (← positions filter).sortColumns? r

def sortOrder (filter : Text) : Except Error (Option SortOrder) := do
  (← positions filter).order?

def limit (filter : Text) : Except Error (Option Nat) := do
  (← positions filter).limit?

def offset (filter : Text) : Except Error (Option Nat) := do
  (← positions filter).offset?

end FilterLang.Reading
