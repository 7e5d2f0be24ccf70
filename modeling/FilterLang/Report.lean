import FilterLang.Json.Pretty
import FilterLang.Sql.Query

/-! Compiled queries as text: plain lines for reading, or a JSON document. -/
namespace FilterLang

def line (s : Text) : Text := s ++ ['\n']

def lines (ss : List Text) : Text := ss.flatMap line

def typed (type : String) (value : Json) : Json :=
  .object [("type".toList, .ofText type.toList), ("value".toList, value)]

mutual

/-- A value as JSON, with the name of its type. -/
def Value.json : Value → Json
  | .null => .object [("type".toList, .ofText "Null".toList)]
  | .bool b => typed "Bool" (.bool b)
  | .int n => typed "Int" (.ofInt n)
  | .text s => typed "Text" (.ofText s)
  | .array items => typed "Array" (.array (Value.jsons items))
  | .path key inner =>
    typed "NestedPath" (.object [("path".toList, .ofText key), ("inner".toList, inner.json)])

def Value.jsons : List Value → List Json
  | [] => []
  | v :: vs => v.json :: Value.jsons vs

end

namespace Sql.Query

def json (q : Query) : Json :=
  .object [
    ("main_sql".toList, .ofText q.mainSql),
    ("count_sql".toList, q.countSql.elim .null .ofText),
    ("args".toList, q.args.elim .null fun args => .array (Value.jsons args))]

/-- An argument with its number, counted from one. -/
def argumentLine (value : Value) (index : Nat) : Text :=
  "  $".toList ++ Text.ofNat (index + 1) ++ " = ".toList ++ value.display
    ++ " (".toList ++ value.kindName ++ [')']

/-- The statements and then the arguments, one to a line. -/
def plain (q : Query) : List Text :=
  q.mainSql :: q.countSql.toList ++ (q.args.getD []).zipIdx.map fun (v, i) => argumentLine v i

/-- The output for a query. -/
def report (asJson : Bool) (q : Query) : Text :=
  if asJson then line (q.json.pretty 0) else lines q.plain

end Sql.Query

end FilterLang
