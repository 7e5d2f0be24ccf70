import FilterLang.Text.Decimal

/-! Values with the type that their text implies, and their plain text. -/
namespace FilterLang

inductive Value where
  | null
  | bool (b : Bool)
  | int (n : Int)
  | text (s : Text)
  | array (items : List Value)
  /-- A value behind a key of a JSON column. -/
  | path (key : Text) (inner : Value)

namespace Value

/-- Stands between the items of an array. -/
def listSeparator : Char := ','

/-- Stands between the key of a JSON column and the value behind it. -/
def pathMarker : Text := ['^', '^']

def kindName : Value → Text
  | null => "NULL".toList
  | bool _ => "BOOLEAN".toList
  | int _ => "INTEGER".toList
  | text _ => "STRING".toList
  | array _ => "ARRAY".toList
  | path _ _ => "JSON PATH".toList

def ofBool : Bool → Text
  | true => "true".toList
  | false => "false".toList

mutual

/-- The plain text of a value, without quotes. -/
def display : Value → Text
  | null => "null".toList
  | bool b => ofBool b
  | int n => Text.ofInt n
  | text s => s
  | array items => [listSeparator].intercalate (displays items)
  | path key inner => key ++ pathMarker ++ inner.display

def displays : List Value → List Text
  | [] => []
  | v :: vs => v.display :: displays vs

end

@[simp] theorem displays_eq_map (vs : List Value) : displays vs = vs.map display := by
  induction vs with
  | nil => rfl
  | cons v vs ih => rw [displays, ih, List.map_cons]

end Value

end FilterLang
