import FilterLang.Text.Basic

/-! Comparison operators, their two spellings, and how one is found in a condition. -/
namespace FilterLang

inductive Operator where
  | eq
  | notEq
  | lt
  | lte
  | gt
  | gte
  | overlaps
  /-- Belongs to search text only, so no condition token names it. -/
  | like
  deriving DecidableEq

namespace Operator

/-- The spelling in the filter language. -/
def token : Operator → Text
  | eq => ['=', '=']
  | notEq => ['!', '=']
  | lt => ['<']
  | lte => ['<', '=']
  | gt => ['>']
  | gte => ['>', '=']
  | overlaps => ['>', '>']
  | like => ['~', '~']

/-- The spelling in SQL. -/
def sql : Operator → Text
  | eq => ['=']
  | notEq => ['!', '=']
  | lt => ['<']
  | lte => ['<', '=']
  | gt => ['>']
  | gte => ['>', '=']
  | overlaps => ['&', '&']
  | like => ['l', 'i', 'k', 'e']

/-- The operators of a condition block. -/
def conditionOperators : List Operator := [eq, notEq, lt, lte, gt, gte, overlaps]

/-- The condition operator that `token` spells. -/
def ofToken? (token : Text) : Option Operator := conditionOperators.find? (·.token = token)

/-- A short operator with the longer ones that its token starts. -/
structure Family where
  base : Operator
  longer : List Operator

/-- The families in the order they are looked for. -/
def families : List Family :=
  [⟨eq, []⟩, ⟨notEq, []⟩, ⟨lt, [lte]⟩, ⟨gt, [gte, overlaps]⟩]

/-- Looks for each family in turn. A base that occurs replaces the one found before it, and a longer
operator that occurs with its base ends the search. -/
def findAmong (atom : Text) : List Family → Option Operator → Option Operator
  | [], found => found
  | f :: fs, found =>
    if Text.holds f.base.token atom then
      match f.longer.find? fun op => Text.holds op.token atom with
      | some op => some op
      | none => findAmong atom fs (some f.base)
    else findAmong atom fs found

/-- The operator of a condition, wherever it stands in the text. -/
def find? (atom : Text) : Option Operator := findAmong atom families none

theorem ofToken?_token {op : Operator} (h : op ≠ like) : ofToken? op.token = some op := by
  revert h; cases op <;> decide

end Operator

end FilterLang
