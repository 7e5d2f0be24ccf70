import FilterLang.Error

/-! What the library knows of a model: which column stands behind a name. -/
namespace FilterLang

/-- Columns go into statements verbatim, so they come from a trusted schema, never from a request. -/
structure Resolver where
  resolve : Text → Option Text
  /-- Every column, in the order in which an empty select block selects them. -/
  columns : List Text
  /-- The column to sort by when only an order is given. -/
  primaryColumn : Text

/-- The column behind a name that was met at `place`. -/
def Resolver.column (r : Resolver) (place : Place) (name : Text) : Except Error Text :=
  match r.resolve name with
  | some column => .ok column
  | none => .error (.unknownField place name)

end FilterLang
