import FilterLang.Resolver
import FilterLang.Text.Blank

/-! The select block: a comma-separated list of field names. -/
namespace FilterLang.Selection

/-- The names of a block, with the blanks around each one removed. -/
def names (block : Text) : List Text := (block.splitOn ',').map Text.trim

/-- The columns that a block names, if it names any. -/
def columns? (r : Resolver) (block : Text) : Except Error (Option (List Text)) :=
  if block.trim.isEmpty then .ok none
  else ((names block).mapM (r.column .select)).map some

end FilterLang.Selection
