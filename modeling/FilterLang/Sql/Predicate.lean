import FilterLang.Condition
import FilterLang.Resolver
import FilterLang.Settings
import FilterLang.Sql.Fragment
import FilterLang.Text.Lowercase
import FilterLang.Value.Classify

/-! Predicates: what a single condition says about a row. -/
namespace FilterLang.Sql

/-- The name that a statement gives its table. -/
def tableAlias : Text := ['q']

def columnRef (column : Text) : Text := tableAlias ++ '.' :: column

/-- What a predicate looks at: a column, or a key of a JSON column. -/
inductive Operand where
  | column (name : Text)
  | member (name key : Text)

inductive Predicate where
  | isNull (operand : Operand)
  | isNotNull (operand : Operand)
  | compare (operand : Operand) (operator : Operator) (value : Value)
  | anyOf (operand : Operand) (items : List Value)
  | noneOf (operand : Operand) (items : List Value)
  | overlaps (operand : Operand) (items : List Value)
  /-- The text of the operand in small letters matches the pattern. -/
  | like (operand : Operand) (pattern : Text)

def Operand.template : Operand → Template
  | .column name => [.text (columnRef name)]
  | .member name key => [.text (columnRef name ++ " ->> ".toList), .quoted key]

/-- The operand as text in small letters. What stands behind a key is text already. -/
def Operand.lowered : Operand → Template
  | .column name => [.text ("lower(".toList ++ columnRef name ++ "::text)".toList)]
  | .member name key =>
    .text "lower(".toList :: (Operand.member name key).template ++ [.text [')']]

namespace Predicate

def template : Predicate → Template
  | isNull o => o.template ++ [.text " is null".toList]
  | isNotNull o => o.template ++ [.text " is not null".toList]
  | compare o op v => o.template ++ [.text (' ' :: op.sql ++ [' ']), .slot v]
  | anyOf o items => o.template ++ [.text " = any(".toList, .slot (.array items), .text [')']]
  | noneOf o items =>
    .text "not ".toList ::
      (o.template ++ [.text " = any(".toList, .slot (.array items), .text [')']])
  | overlaps o items =>
    o.template ++ [.text (' ' :: Operator.overlaps.sql ++ [' ']), .slot (.array items)]
  | like o pattern =>
    o.lowered ++ [.text (' ' :: Operator.like.sql ++ [' ']), .slot (.text pattern)]

/-- Sets an operand against a typed value. Nulls and arrays take few operators. -/
def ofValue (operand : Operand) (operator : Operator) (value : Value) : Except Error Predicate :=
  match value, operator with
  | .null, .eq => .ok (.isNull operand)
  | .null, .notEq => .ok (.isNotNull operand)
  | .null, _ => .error (.operatorOnNull operator)
  | .array items, .overlaps => .ok (.overlaps operand items)
  | v, .overlaps => .ok (.overlaps operand [v])
  | .array items, .eq => .ok (.anyOf operand items)
  | .array items, .notEq => .ok (.noneOf operand items)
  | .array _, _ => .error (.operatorOnArray operator)
  | v, _ => .ok (.compare operand operator v)

/-- What a condition says. Its value is sanitized first and then typed. -/
def ofCondition (settings : Settings) (r : Resolver) (c : Condition) : Except Error Predicate := do
  let column ← r.column .condition c.field
  let value ← Value.classify c.operator settings.textCap (settings.conditionCharset.sanitize c.value)
  match value with
  | .path key inner => ofValue (.member column key) c.operator inner
  | v => ofValue (.column column) c.operator v

/-- A pattern that finds `s` anywhere. -/
def pattern (s : Text) : Text := '%' :: s.lower ++ ['%']

/-- What a unit of search text says, whatever its operator. -/
def ofSearch (settings : Settings) (r : Resolver) (c : Condition) : Except Error Predicate := do
  let column ← r.column .search c.field
  let text := settings.searchCharset.sanitize c.value
  match Text.cut? Value.pathMarker text with
  | some (key, rest) => return .like (.member column key) (pattern rest)
  | none => return .like (.column column) (pattern text)

/-- What a unit of either kind of block says. -/
def of (settings : Settings) (r : Resolver) : Mode → Condition → Except Error Predicate
  | .standard => ofCondition settings r
  | .search => ofSearch settings r

end Predicate

end FilterLang.Sql
