import FilterLang.Filter
import FilterLang.Restriction
import FilterLang.Selection
import FilterLang.Sql.Clause
import FilterLang.Value.Binding

/-! Whole statements, from a filter and a target. -/
namespace FilterLang.Sql

/-- What is asked for. Without search text the filter alone decides. -/
structure Request where
  target : Text
  filter : Text
  search : Text
  withCount : Bool
  withArgs : Bool

structure Query where
  mainSql : Text
  /-- Counts the rows that the main statement finds without its limit. -/
  countSql : Option Text
  /-- The values of the placeholders, if there were to be any. -/
  args : Option (List Value)

/-- The arguments as a driver binds them. -/
def Query.bindings (q : Query) : List Binding := (q.args.getD []).map Value.binding

def BindMode.ofFlag (withArgs : Bool) : BindMode := if withArgs then .placeholder else .literal

def selectOpening : Text := "select ".toList

/-- References to columns between commas, or to all of them where there are none. -/
def selectList (references : List Text) : Text :=
  if references.isEmpty then selectOpening ++ tableAlias ++ ".*".toList
  else selectOpening ++ ", ".toList.intercalate references

/-- The select list of a block. An empty block selects every column. -/
def compileSelect (r : Resolver) (block : Text) : Except Error Text := do
  let references ←
    if block.trim.isEmpty then pure (r.columns.map columnRef)
    else (block.splitOn ',').mapM fun name => (r.column .select (Text.trim name)).map columnRef
  return selectList references

def sortKey (order : Option SortOrder) (column : Text) : Text :=
  match order with
  | none => columnRef column
  | some order => columnRef column ++ ' ' :: order.text

def orderBy (columns : List Text) (order : Option SortOrder) : List Text :=
  if columns.isEmpty then []
  else ["order by ".toList ++ ", ".toList.intercalate (columns.map (sortKey order))]

/-- The parts of the statement after the where clause. -/
def restrictionSql (s : Restriction) : Text :=
  [' '].intercalate <| orderBy s.sortColumns s.order
    ++ (s.limit.map fun n => "limit ".toList ++ Text.ofNat n).toList
    ++ (s.offset.map fun n => "offset ".toList ++ Text.ofNat n).toList

/-- Joins the parts of a statement that are not blank. -/
def joinParts (parts : List Text) : Text :=
  [' '].intercalate ((parts.map Text.trim).filter (!·.isEmpty))

/-- Compiles a request. Its blocks are checked in their order. -/
def compile (quote : Quoting) (settings : Settings) (r : Resolver) (q : Request) :
    Except Error Query := do
  if q.filter.isEmpty then .error (.missing .parameters)
  if q.target.trim.isEmpty then .error (.missing .target)
  let filter ← Filter.split q.filter
  let select ← compileSelect r filter.fields
  let clause ← compileWhere quote settings r (.ofFlag q.withArgs) filter.conditions q.search
  let restriction ← Restriction.parse r filter.restrictions
  let source := "from ".toList ++ q.target.trim ++ ' ' :: tableAlias
  let counted := joinParts ["select 1".toList, source, clause.sql]
  return {
    mainSql := joinParts [select, source, clause.sql, restrictionSql restriction]
    countSql := if q.withCount then
        some ("select count(*) from (".toList ++ counted ++ ") ".toList ++ tableAlias)
      else none
    args := if q.withArgs then some clause.args else none }

end FilterLang.Sql
